import Cbps.Obex.System

/-!
# The requests of a client

The requests that an application makes over a client session: `obex_client.c`, and behind it the part of
`obex_client_handler.c` that sends. Most of them send the packet that the application has framed before; SETPATH and
DELETE frame a packet of their own, with a Name header.
-/

namespace Cbps.Obex

/-- `ObexFolderPath`. -/
inductive ObexFolderPath
  | newFolder
  | folderRoot
  | folderIn
  | folderOut
  deriving DecidableEq, Repr

/-- The value of the enumerator, as it goes into a packet. -/
def ObexFolderPath.toUInt8 : ObexFolderPath → UInt8
  | .newFolder => 0
  | .folderRoot => 1
  | .folderIn => 2
  | .folderOut => 3

/-! ### PUT and GET -/

/-- `obexPutReq`. In `obex_put` the result of `obexNewPacket` is not looked at. -/
def obexPutReq (s : Session) (opcode : UInt8) : Session :=
  if s.isObexConnected ∨ s.isObexInPut then
    if s.isObexConnected ∧ s.pktLen < obexMinPutReqSize then
      obexStatusCfm (s.setPktLen 0) ObexStatus.invalidParameters .putCfm 0
    else
      let s := if s.isObexInPut ∧ s.pktLen = 0 then (obexNewPacket s 0 obexPut).2 else s
      (obexFlushPacket s opcode).setState .put
  else obexStatusCfm (s.setPktLen 0) ObexStatus.invalidCommand .putCfm 0

/-- `ObexPutRequest`. -/
def obexPutRequest (s : Session) (final : Bool) : Session := obexPutReq s (if final then obexPutFinal else obexPut)

/-- `obexGetReq`. In `obex_get` the result of `obexNewPacket` is not looked at. -/
def obexGetReq (s : Session) (opcode : UInt8) : Session :=
  if s.isObexConnected ∨ s.isObexInGet then
    if s.isObexConnected ∧ s.pktLen < obexMinGetReqSize then
      obexStatusCfm (s.setPktLen 0) ObexStatus.invalidParameters .getCfm 0
    else
      let s := if s.isObexInGet ∧ s.pktLen = 0 then (obexNewPacket s 0 obexGet).2 else s
      (obexFlushPacket s opcode).setState .get
  else obexStatusCfm (s.setPktLen 0) ObexStatus.invalidCommand .getCfm 0

/-- `ObexGetRequest`. -/
def obexGetRequest (s : Session) (final : Bool) : Session := obexGetReq s (if final then obexGetFinal else obexGet)

/-- `obexAbortReq`. -/
def obexAbortReq (s : Session) : Session :=
  if s.isObexInGet ∨ s.isObexInPut then
    let (allocLen, t) := obexNewPacket s 0 obexAbort
    if allocLen ≠ 0 then
      let t := obexFlushPacket t obexAbort
      t.setState (if t.state = .put then .abortPut else .abortGet)
    else t
  else s

/-! ### SETPATH and DELETE -/

/-- `ObexObjAddVariableHdr` for a Name header, with the octets of its source and the octet in front of them. Without a
source the header is empty. -/
def obexAddNameHdr (s : Session) (src : Option (List UInt8 × UInt8)) : Option (Bool × Session) :=
  match src with
  | none => some (obexAddEmptyHeader s obexNameHdr 0)
  | some (octets, before) => obexAddUnicodeHeader s obexNameHdr octets before

/-- `obexSetPathReq`. -/
def obexSetPathReq (s : Session) (flag : UInt8) : Session :=
  if s.isObexConnected then (obexFlushPacket (s.store 3 [flag, 0]) obexSetPath).setState .setpath
  else obexStatusCfm (s.setPktLen 0) ObexStatus.invalidCommand .setPathCfm 0

/-- `ObexSetPathRequest`. -/
def obexSetPathRequest (s : Session) (flags : ObexFolderPath) (folderName : List UInt8) : Option Session :=
  let folderName := if flags = .folderRoot then [] else folderName
  let flags := if flags = .folderRoot then .folderIn else flags
  let (allocLen, s) := obexNewPacket s (u16 (folderName.length * 2)) obexSetPath
  if allocLen = 0 then some (obexStatusCfm s ObexStatus.failure .setPathCfm 0)
  else
    (obexAddNameHdr s (if folderName = [] then none else some (folderName, 0))).map fun (ok, s) =>
      if ok then obexSetPathReq s flags.toUInt8
      else obexObjDelete (obexStatusCfm s ObexStatus.failure .setPathCfm 0)

/-- `obexDeleteReq`. -/
def obexDeleteReq (s : Session) : Session :=
  if s.isObexConnected then (obexFlushPacket s obexPutFinal).setState .delete
  else obexStatusCfm (s.setPktLen 0) ObexStatus.invalidCommand .deleteCfm 0

/-- `ObexDeleteRequest`, with the octet in front of the name. -/
def obexDeleteRequest (s : Session) (objName : List UInt8) (before : UInt8) : Option Session :=
  let (allocLen, s) := obexNewPacket s (u16 (objName.length * 2)) obexPut
  if allocLen = 0 then some (obexStatusCfm s ObexStatus.failure .deleteCfm 0)
  else
    (obexAddNameHdr s (some (objName, before))).map fun (ok, s) =>
      if ok then obexDeleteReq s
      else obexObjDelete (obexStatusCfm s ObexStatus.failure .deleteCfm 0)

/-! ### Sessions with their application -/

/-- The requests of the application. -/
inductive Request
  | put (final : Bool)
  | get (final : Bool)
  | setPath (flags : ObexFolderPath) (folderName : List UInt8)
  | delete (objName : List UInt8) (before : UInt8)
  | abort
  | disconnect
  deriving DecidableEq, Repr

/-- One request. -/
def request (s : Session) : Request → Option Session
  | .put final => some (obexPutRequest s final)
  | .get final => some (obexGetRequest s final)
  | .setPath flags folderName => obexSetPathRequest s flags folderName
  | .delete objName before => obexDeleteRequest s objName before
  | .abort => some (obexAbortReq s)
  | .disconnect => some (obexDisconnectReq s)

/-- What may happen to a session: an event of its surroundings, or a request. -/
inductive Action
  | event (e : Event)
  | request (r : Request)
  deriving DecidableEq, Repr

/-- One action. -/
def act (s : Session) : Action → Option Session
  | .event e => step s e
  | .request r => request s r

/-- A session of any role whose transport has just reported how its connection went. -/
def startSession (role : ObexRole) (connParams : ObexConnParams) (sink : Sink) (source : List UInt8)
    (status : RfcommConnectStatus) (payloadSize : ℕ) : Session :=
  obexHandleRfcConnectCfm { obexCreateSession role connParams.target sink source with auth := connParams.auth }
    status payloadSize

end Cbps.Obex
