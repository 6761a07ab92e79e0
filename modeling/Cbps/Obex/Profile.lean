import Cbps.Obex.Packet

/-!
# Sessions and their authentication

The model of `obex_profile_handler.c` (how a session is created, connected, authenticated and
taken down) and of the authentication interface of `obex_common.c`.
-/

namespace Cbps.Obex

/-! ### Taking a session down -/

/-- `obexDisconnectSession`. -/
def obexDisconnectSession (s : Session) : Session :=
  (s.emit .rfcommDisconnectRequest).setState .idle

/-- `obexDeleteSessionTask`. -/
def obexDeleteSessionTask (s : Session) : Session :=
  if s.isObexInIdle then s.emit .deleteLater
  else if s.isObexServer ∧ s.isObexDisconnected then s.setState .idle
  else obexDisconnectSession s

/-- `obexHandleRfcommDisconnect`. -/
def obexHandleRfcommDisconnect (s : Session) : Session :=
  let s := s.emit .rfcommDisconnectResponse
  if s.isObexReady ∨ s.isObexConnecting then obexDeleteSessionInd (s.setState .idle)
  else obexDeleteSessionTask (s.setState .idle)

/-! ### Authentication -/

/-- `obexValidateSession`: the Target of a request, or the Who of a response, is ours. -/
def obexValidateSession (s : Session) (pkt : List UInt8) (len : ℕ) : Option Bool :=
  let opcode := if s.isObexClient then obexWhoHdr else obexTargetHdr
  (obexGetSeqHeader pkt len opcode).map fun (target, len) =>
    len = s.sizeTargetWho ∧
      ∃ off ∈ target, octetsAt pkt off s.sizeTargetWho = s.targetWho.getD []

/-- The second half of `obexAuthenticateSession`: in `obex_auth_connect` the packet must carry
the response to the challenge that was sent. -/
def authenticateResponse (s : Session) (pkt : List UInt8) (len pktLen : ℕ) :
    Option (Bool × ℕ × Session) :=
  if s.isObexInAuthConnect then
    (obexGetDigest pkt len obexAuthResponse obexRspDigestTag).map fun (digest, len) =>
      match digest with
      | none => (false, len, s)
      | some digest => (true, pktLen, obexAuthRspCfm s (pkt.drop digest) len)
  else some (true, pktLen, s)

/-- `obexAuthenticateSession`: the verdict, the length of the unprocessed packet, the session. -/
def obexAuthenticateSession (s : Session) (pkt : List UInt8) (len : ℕ) :
    Option (Bool × ℕ × Session) :=
  if s.isObexInConnect ∧ ¬ s.auth then some (true, 0, s)
  else if s.auth then
    let s := if s.isObexInConnect then obexAuthReqInd s else s
    (obexGetDigest pkt len obexAuthChallenge obexReqNonceTag).bind fun (digest, pktLen) =>
      match digest with
      | none => some (false, len, s)
      | some digest =>
        authenticateResponse (obexAuthClgInd s (pkt.drop digest) pktLen) pkt len
          (u16 (len - digest))
  else authenticateResponse s pkt len 0

/-- The challenge that `ObexAuthReqResponse` frames. -/
def authReqDigest (nonce : List UInt8) (options : UInt8) (realm : Option (List UInt8)) :
    List UInt8 :=
  let digest := obexFrameTLVHeader obexReqNonceTag (octetsAt nonce 0 obexSizeDigest)
  let digest :=
    if options ≠ 0 then digest ++ obexFrameTLVHeader obexReqOptionsTag [options] else digest
  match realm with
  | none => digest
  | some realm => digest ++ obexFrameTLVHeader obexReqRealmTag (realm.take obexMaxValSize)

/-- `ObexAuthReqResponse`: `nonce` is `none` for a NULL pointer, and so is `realm`. -/
def obexAuthReqResponse (s : Session) (nonce : Option (List UInt8)) (options : UInt8)
    (realm : Option (List UInt8)) : Session :=
  if s.isObexConnecting then
    obexSendAuthPacket s obexAuthChallenge
      (nonce.elim [] fun nonce => authReqDigest nonce options realm)
  else s

/-- The response that `ObexAuthClgResponse` frames. -/
def authClgDigest (reqDigest : List UInt8) (userId : Option (List UInt8)) : List UInt8 :=
  let digest := obexFrameTLVHeader obexRspDigestTag (octetsAt reqDigest 0 obexSizeDigest)
  match userId with
  | none => digest
  | some userId => digest ++ obexFrameTLVHeader obexRspUsridTag (userId.take obexMaxValSize)

/-- `ObexAuthClgResponse`: `userId` is `none` for a NULL pointer. -/
def obexAuthClgResponse (s : Session) (reqDigest : List UInt8) (userId : Option (List UInt8)) :
    Session :=
  if s.isObexConnecting then obexSendAuthPacket s obexAuthResponse (authClgDigest reqDigest userId)
  else s

/-! ### Creating a session -/

/-- `ObexConnParams`, without the application task. -/
structure ObexConnParams where
  target : Option (List UInt8)
  auth : Bool
  deriving DecidableEq, Repr

/-- `obexCreateSession`, with the transport that the session is going to use. -/
def obexCreateSession (role : ObexRole) (target : Option (List UInt8)) (sink : Sink)
    (source : List UInt8) : Session where
  role := role
  state := .session
  auth := false
  targetWho := target
  connID := obexInvalidUint32
  maxPktLen := obexMaxPacketSize
  pktLen := 0
  srcUsed := 0
  sink := sink
  source := source
  log := []

/-- The branch of `obexConnectResponse` that accepts a server session. -/
def obexConnectResponse (connParams : ObexConnParams) (sink : Sink) (source : List UInt8) :
    Session :=
  { obexCreateSession .rfcommServer connParams.target sink source with auth := connParams.auth }

/-- The status of a `CL_RFCOMM_SERVER_CONNECT_CFM` or `CL_RFCOMM_CLIENT_CONNECT_CFM`. -/
inductive RfcommConnectStatus
  | success
  | pending
  | channelAlreadyOpen
  | failed
  deriving DecidableEq, Repr

/-- `obexConnectReq`: whether the CONNECT request was framed; it is sent if `flush` is set. -/
def obexConnectReq (s : Session) (flush : Bool) : Bool × Session :=
  let (ok, s) := obexFrameConnectPkt s obexConnectOpcode
  if ok then (true, if flush then obexFlushPacket s obexConnectOpcode else s)
  else (false, obexConnectCfm s ObexStatus.failure)

/-- `obexConnectionReady`. -/
def obexConnectionReady (s : Session) : Session :=
  if s.isObexClient ∧ s.isObexInConnect then (obexConnectReq s true).2
  else if s.srcUsed = 0 then obexSourceEmpty s
  else s

/-- `obexHandleSessionCfm`. -/
def obexHandleSessionCfm (s : Session) (status : ObexStatus) : Session :=
  let s := obexCreateSessionCfm s status
  if status = ObexStatus.success then obexConnectionReady (s.setState .connect)
  else obexDeleteSessionTask (obexConnectCfm (s.setState .idle) ObexStatus.failure)

/-- `obexHandleRfcConnectCfm`. The frame size of a connected channel is positive. -/
def obexHandleRfcConnectCfm (s : Session) (status : RfcommConnectStatus) (payloadSize : ℕ) :
    Session :=
  match status with
  | .pending => s
  | .success | .channelAlreadyOpen =>
    obexHandleSessionCfm { s with maxPktLen := obexMaxPacketSize / payloadSize * payloadSize }
      ObexStatus.success
  | .failed => obexHandleSessionCfm s ObexStatus.failure

end Cbps.Obex
