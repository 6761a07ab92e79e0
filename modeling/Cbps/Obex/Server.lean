import Cbps.Obex.Profile

/-!
# The server side of OBEX

The model of `obex_server_handler.c` and of the responses of `obex_server.c`. A handler returns
the length of the packet's unprocessed octets, which stay in the source, or `none` when it
never returns because a header scan does not.
-/

namespace Cbps.Obex

/-- `obexSendResponse`. -/
def obexSendResponse (s : Session) (response : ObexStatus) : Session :=
  let response :=
    if response = ObexStatus.success then ObexStatus.remoteSuccess
    else if response < ObexStatus.continue then ObexStatus.unknownError
    else response
  let (ok, s) :=
    if s.pktLen ≠ 0 then (true, s)
    else
      let (allocLen, s) := obexNewPacket s 0 obexPut
      (decide (allocLen ≠ 0), s)
  let s := if ok then obexFlushPacket s response else s
  if response = ObexStatus.continue then s else s.setState .connected

/-- `obexSendErrorResponse`. -/
def obexSendErrorResponse (s : Session) (response : ObexStatus) : Session :=
  let s := s.setState .connected
  let (allocLen, s) := obexNewPacket s obexPktHdrSize obexPut
  if allocLen ≠ 0 then obexFlushPacket s response else s

/-- `obexHandleAbortRequest`. -/
def obexHandleAbortRequest (s : Session) : Session :=
  let s := if s.isObexInPut ∨ s.isObexInGet then obexAbortInd s else s
  obexSendResponse s ObexStatus.remoteSuccess

/-- `obexHandleDisconnectRequest`. -/
def obexHandleDisconnectRequest (s : Session) (pkt : List UInt8) (pktLen : ℕ) : Option Session :=
  (obexValidateConnectionID s pkt pktLen).map fun (valid, _) =>
    if valid then
      let s := obexSendResponse s ObexStatus.remoteSuccess
      obexDeleteSessionInd (s.setPktLen 0)
    else obexSendErrorResponse s ObexStatus.srvUnavailable

/-- The response to a CONNECT that `obexHandleConnectRequest` settles on before it frames the
reply. -/
def connectResponse (s : Session) (pkt : List UInt8) (pktLen : ℕ) :
    Option (ObexStatus × Session) :=
  if pktLen < obexPktConnectHdrSize then some (ObexStatus.badRequest, s)
  else if s.isObexConnecting then
    if s.targetWho.isSome then
      let maxPktLen := uint8ToUint16 pkt 5
      let pkt := pkt.drop obexPktConnectHdrSize
      let pktLen := pktLen - obexPktConnectHdrSize
      (obexValidateSession s pkt pktLen).bind fun valid =>
        if valid then
          let s := { s with maxPktLen := min maxPktLen s.maxPktLen }
          (obexAuthenticateSession s pkt pktLen).map fun (authenticated, _, s) =>
            if authenticated then (ObexStatus.remoteSuccess, s)
            else if s.isObexInAuthConnect then (ObexStatus.unauthorized, s)
            else (obexUnauthorizedRsp, s)
        else some (ObexStatus.notImplemented, s)
    else some (ObexStatus.remoteSuccess, s)
  else some (ObexStatus.preconFail, s)

/-- The reply to a CONNECT. It is held back while the application is asked to authenticate. -/
def connectReply (s : Session) (response : ObexStatus) : Session :=
  let (ok, s) := obexFrameConnectPkt s response
  if ok ∧ (response = obexUnauthorizedRsp ∨ response = ObexStatus.remoteSuccess ∧ s.auth) then s
  else
    let s := if ok then obexFlushPacket s response else s
    let response := if ok then response else ObexStatus.failure
    let s := if response ≠ ObexStatus.remoteSuccess then s.setState .session else s
    obexConnectCfm s response

/-- `obexHandleConnectRequest`. -/
def obexHandleConnectRequest (s : Session) (pkt : List UInt8) (pktLen : ℕ) :
    Option (ℕ × Session) :=
  (connectResponse s pkt pktLen).map fun (response, s) => (0, connectReply s response)

/-- `obexHandleSetPathRequest`. The flags are read from octet 0, the opcode. -/
def obexHandleSetPathRequest (s : Session) (pkt : List UInt8) (pktLen : ℕ) :
    Option (ℕ × Session) :=
  if s.isObexReady then
    (obexValidateConnectionID s pkt pktLen).bind fun (valid, pktLen) =>
      if valid then
        let path := (pkt.getD 0 0 &&& 0x03).toNat
        if path = 3 then
          some (0, obexCommandInd (s.setState .setpath) .setPathInd (path ≠ 0) 0)
        else
          (obexGetSeqHeader pkt pktLen obexNameHdr).map fun (name, pktLen) =>
            let (path, pktLen) := if name.isNone ∨ pktLen = 0 then (1, 0) else (path, pktLen)
            (pktLen, obexCommandInd (s.setState .setpath) .setPathInd (path ≠ 0) pktLen)
      else some (0, obexSendResponse s ObexStatus.badRequest)
  else some (0, obexSendResponse s ObexStatus.srvUnavailable)

/-- The indication of a PUT or GET request. -/
def putGetInd (s : Session) (cmd : UInt8) (pktLen : ℕ) : Session :=
  let final : Bool := cmd &&& 0x80 ≠ 0
  if cmd = obexGet ∨ cmd = obexGetFinal then
    obexCommandInd (s.setState .get) .getInd final pktLen
  else obexCommandInd (s.setState .put) .putInd final pktLen

/-- `obexHandlePutGetRequest`. -/
def obexHandlePutGetRequest (s : Session) (pkt : List UInt8) (pktLen : ℕ) :
    Option (ℕ × Session) :=
  let cmd := pkt.getD 0 0
  if s.isObexReady then
    if s.isObexConnected then
      (obexValidateConnectionID s pkt pktLen).map fun (valid, pktLen) =>
        if valid then (pktLen, putGetInd s cmd pktLen)
        else (0, obexSendResponse s ObexStatus.srvUnavailable)
    else if s.isObexInPut ∧ (cmd = obexGet ∨ cmd = obexGetFinal) then
      some (0, obexSendResponse s ObexStatus.badRequest)
    else
      let pktLen := u16 (pktLen - obexPktHdrSize)
      some (pktLen, putGetInd s cmd pktLen)
  else some (0, obexSendResponse s ObexStatus.srvUnavailable)

/-- `obexHandleCommand`. -/
def obexHandleCommand (s : Session) (pkt : List UInt8) (pktLen : ℕ) : Option (ℕ × Session) :=
  let op := pkt.getD 0 0
  if op = obexConnectOpcode then obexHandleConnectRequest s pkt pktLen
  else if op = obexDisconnect then (obexHandleDisconnectRequest s pkt pktLen).map fun s => (0, s)
  else if op = obexAbort then some (0, obexHandleAbortRequest s)
  else if op = obexSetPath then obexHandleSetPathRequest s pkt pktLen
  else if op = obexPut ∨ op = obexPutFinal ∨ op = obexGet ∨ op = obexGetFinal then
    obexHandlePutGetRequest s pkt pktLen
  else some (0, obexSendErrorResponse s ObexStatus.notImplemented)

/-! ### Responses of the application -/

/-- `ObexPutResponse`. -/
def obexPutResponse (s : Session) (response : ObexStatus) : Session := obexSendResponse s response

/-- `ObexGetResponse`. -/
def obexGetResponse (s : Session) (response : ObexStatus) : Session := obexSendResponse s response

/-- `ObexSetPathResponse`. -/
def obexSetPathResponse (s : Session) (response : ObexStatus) : Session :=
  obexSendResponse s
    (if response = ObexStatus.continue then ObexStatus.remoteSuccess else response)

end Cbps.Obex
