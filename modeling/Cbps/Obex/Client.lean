import Cbps.Obex.Profile

/-!
# The client side of OBEX

The part of `obex_client_handler.c` that handles incoming packets: the responses to the
requests of a client session.
-/

namespace Cbps.Obex

/-- `obexDisconnectReq`. -/
def obexDisconnectReq (s : Session) : Session :=
  if s.isObexReady then
    let (allocLen, s) := obexNewPacket ((s.setPktLen 0).setState .disconnect) 0 obexDisconnect
    if allocLen ≠ 0 then obexFlushPacket s obexDisconnect else obexDisconnectSession s
  else obexDisconnectSession s

/-- The response OBEX_UNAUTHORIZED_RSP: another CONNECT request is framed, and the application
is asked for both digests. -/
def connectUnauthorized (s : Session) (pkt : List UInt8) (pktLen : ℕ) : Option (ℕ × Session) :=
  let (ok, s) := obexConnectReq s false
  if ok then
    (obexAuthenticateSession { s with auth := true } pkt pktLen).map fun (authenticated, len, s) =>
      (len, if authenticated then s else obexConnectCfm s ObexStatus.invalidResponse)
  else some (pktLen, s)

/-- The response OBEX_SUCCESS. A server that does not send its digest is not rejected. -/
def connectSuccess (s : Session) (maxPktLen : ℕ) (pkt : List UInt8) (pktLen : ℕ) :
    Option (ℕ × Session) :=
  let checked : Option (Bool × Session) :=
    if s.targetWho.isSome then
      (obexStoreConnectionID s pkt pktLen).bind fun (stored, s) =>
        if stored then (obexValidateSession s pkt pktLen).map fun valid => (valid, s)
        else some (false, s)
    else some (true, s)
  checked.bind fun (accepted, s) =>
    if accepted then
      (obexAuthenticateSession s pkt pktLen).map fun (_, len, s) =>
        (len, obexConnectCfm { s with maxPktLen := min maxPktLen s.maxPktLen }
          ObexStatus.remoteSuccess)
    else some (0, obexConnectCfm s ObexStatus.localUnauth)

/-- `obexHandleConnectResponse`. -/
def obexHandleConnectResponse (s : Session) (pkt : List UInt8) (pktLen : ℕ) :
    Option (ℕ × Session) :=
  let response := pkt.getD 0 0
  if pktLen < obexPktConnectHdrSize then some (0, obexConnectCfm s ObexStatus.invalidResponse)
  else
    let maxPktLen := uint8ToUint16 pkt 5
    let pkt := pkt.drop obexPktConnectHdrSize
    let pktLen := pktLen - obexPktConnectHdrSize
    let response :=
      if response = ObexStatus.unauthorized ∧ ¬ s.isObexInAuthConnect then obexUnauthorizedRsp
      else response
    if response = obexUnauthorizedRsp then connectUnauthorized s pkt pktLen
    else if response = ObexStatus.remoteSuccess then connectSuccess s maxPktLen pkt pktLen
    else some (pktLen, obexConnectCfm s ObexStatus.failure)

/-- `obexHandleGetPutResponse`. The connection identifier is skipped, not checked. -/
def obexHandleGetPutResponse (s : Session) (pkt : List UInt8) (pktLen : ℕ) :
    Option (ℕ × Session) :=
  let status := pkt.getD 0 0
  (obexValidateConnectionID s pkt pktLen).map fun (_, hdrLen) =>
    let s := obexStatusCfm s status (if s.isObexInPut then .putCfm else .getCfm) hdrLen
    (hdrLen, if status = ObexStatus.continue then s else s.setState .connected)

/-- `obexHandleAbortResponse`. -/
def obexHandleAbortResponse (s : Session) (status : ObexStatus) : Session :=
  let status := if status = ObexStatus.remoteSuccess then ObexStatus.localAbort else status
  let s := obexStatusCfm s status (if s.state = .abortPut then .putCfm else .getCfm) 0
  let s := s.setState .connected
  if status ≠ ObexStatus.localAbort then obexDisconnectReq s else s

/-- `obexHandleResponse`. -/
def obexHandleResponse (s : Session) (pkt : List UInt8) (pktLen : ℕ) : Option (ℕ × Session) :=
  let status := pkt.getD 0 0
  match s.state with
  | .connect | .authConnect => obexHandleConnectResponse s pkt pktLen
  | .disconnect => some (0, obexDeleteSessionInd s)
  | .abortGet | .abortPut => some (0, obexHandleAbortResponse s status)
  | .delete => some (0, obexStatusCfm (s.setState .connected) status .deleteCfm 0)
  | .setpath => some (0, obexStatusCfm (s.setState .connected) status .setPathCfm 0)
  | .put | .get => obexHandleGetPutResponse s pkt pktLen
  | .idle | .session | .connected => some (0, s)

end Cbps.Obex
