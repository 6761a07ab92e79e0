import Cbps.Lib.Runs
import Cbps.Obex.Client
import Cbps.Obex.Server

/-!
# A session and its surroundings

The receive loop `obexHandleIncomingPacket`, and the step relation of a session: the remote
side sends octets and drains the sink, the scheduler delivers `MORE_DATA`, the transport goes
down, and the application answers indications or frames objects.

A `moreData` event runs the first `n` iterations of the loop, for any `n`: what holds after
every event then also holds between two iterations, and of a loop that never ends.
-/

namespace Cbps.Obex

/-- The handlers, entered with a complete packet. -/
def handlePacket (s : Session) (pkt : List UInt8) (pktLen : ℕ) : Option (ℕ × Session) :=
  let s := s.emit (.received s.state pkt pktLen)
  if s.isObexServer then obexHandleCommand s pkt pktLen else obexHandleResponse s pkt pktLen

/-- One iteration of `obexHandleIncomingPacket`, and whether the loop goes on. -/
def incomingIteration (s : Session) (beyond : List UInt8) : Option (Bool × Session) :=
  let srcData := s.sourceBoundary
  if srcData ≥ obexPktHdrSize ∧ s.srcUsed = 0 then
    let pkt := s.sourceMap beyond
    let pktLen := uint8ToUint16 pkt 1
    if pktLen > s.maxPktLen then
      let s := s.setSource []
      some (false, if s.isObexClient then obexDisconnectReq s
        else obexSendErrorResponse s ObexStatus.badRequest)
    else if pktLen > srcData then some (false, s)
    else
      (handlePacket s pkt pktLen).map fun (srcUsed, s) =>
        (true, (s.sourceDrop (u16 (pktLen - srcUsed))).setSrcUsed srcUsed)
  else some (false, s)

/-- The first `n` iterations of `obexHandleIncomingPacket`. -/
def obexHandleIncomingPacket (s : Session) (beyond : List UInt8) : (n : ℕ) → Option Session
  | 0 => some s
  | n + 1 =>
    (incomingIteration s beyond).bind fun (goesOn, s) =>
      if goesOn then obexHandleIncomingPacket s beyond n else some s

/-! ### Objects framed by the application -/

/-- `ObexObjNew`. -/
def obexObjNew (s : Session) : Session := (obexNewPacket s obexEmptyBodySize obexGet).2

/-- `ObexObjDelete`. -/
def obexObjDelete (s : Session) : Session := obexObjFlush s false

/-- `ObexObjAddByteHdr`. -/
def obexObjAddByteHdr (s : Session) (hdrId : UInt8) (hdrVal : ℕ) : Session :=
  (obexAddUint32Header s hdrId hdrVal).2

/-- `ObexObjAddVariableHdr`. Without a source it claims room for `hdrLen` octets. -/
def obexObjAddVariableHdr (s : Session) (hdrId : UInt8) (hdrLen : ℕ)
    (src : Option (List UInt8 × UInt8)) : Option Session :=
  match src with
  | none => some (obexAddEmptyHeader s hdrId hdrLen).2
  | some (octets, before) =>
    if isByteSeqHdr hdrId then some (obexAddSeqHeader s hdrId octets).2
    else if isUnicodeHdr hdrId then (obexAddUnicodeHeader s hdrId octets before).map Prod.snd
    else some s

/-! ### The step relation -/

inductive Event
  | receive (octets : List UInt8)
  | moreData (beyond : List UInt8) (iterations : ℕ)
  | sinkSpace (slack : ℕ)
  | rfcommDisconnectInd
  | putResponse (response : ObexStatus)
  | getResponse (response : ObexStatus)
  | setPathResponse (response : ObexStatus)
  | authReqResponse (nonce : Option (List UInt8)) (options : UInt8) (realm : Option (List UInt8))
  | authClgResponse (reqDigest : List UInt8) (userId : Option (List UInt8))
  | deleteSessionResponse
  | sourceDrop
  | objNew
  | objDelete
  | objAddByteHdr (hdrId : UInt8) (hdrVal : ℕ)
  | objAddVariableHdr (hdrId : UInt8) (hdrLen : ℕ) (src : Option (List UInt8 × UInt8))
  deriving DecidableEq, Repr

/-- One event. -/
def step (s : Session) : Event → Option Session
  | .receive octets => some (s.setSource (s.source ++ octets))
  | .moreData beyond iterations => obexHandleIncomingPacket s beyond iterations
  | .sinkSpace slack => some (s.setSink (s.sink.setSlack slack))
  | .rfcommDisconnectInd => some (obexHandleRfcommDisconnect s)
  | .putResponse response => some (obexPutResponse s response)
  | .getResponse response => some (obexGetResponse s response)
  | .setPathResponse response => some (obexSetPathResponse s response)
  | .authReqResponse nonce options realm => some (obexAuthReqResponse s nonce options realm)
  | .authClgResponse reqDigest userId => some (obexAuthClgResponse s reqDigest userId)
  | .deleteSessionResponse => some (obexDeleteSessionTask s)
  | .sourceDrop => some (obexSourceEmpty s)
  | .objNew => some (obexObjNew s)
  | .objDelete => some (obexObjDelete s)
  | .objAddByteHdr hdrId hdrVal => some (obexObjAddByteHdr s hdrId hdrVal)
  | .objAddVariableHdr hdrId hdrLen src => obexObjAddVariableHdr s hdrId hdrLen src

/-- A server session whose RFCOMM channel has just come up. -/
def serverSession (connParams : ObexConnParams) (sink : Sink) (source : List UInt8)
    (payloadSize : ℕ) : Session :=
  obexHandleRfcConnectCfm (obexConnectResponse connParams sink source) .success payloadSize

end Cbps.Obex
