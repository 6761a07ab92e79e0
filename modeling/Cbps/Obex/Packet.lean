import Cbps.Obex.Object

/-!
# OBEX packets

The model of `obex_packet_handler.c`, except for the receive loop: framing, flushing and
allocating outgoing packets, and validating the connection identifier of incoming ones.

A source maps to the memory that holds its octets; `beyond` stands for what lies behind them.
-/

namespace Cbps.Obex

/-- `SourceMap` of the session's source. -/
def Session.sourceMap (s : Session) (beyond : List UInt8) : List UInt8 := s.source ++ beyond

/-- `SourceBoundary` of the session's source, a `u16`. -/
def Session.sourceBoundary (s : Session) : ℕ := min s.source.length 65535

/-- `SourceDrop`. -/
def Session.sourceDrop (s : Session) (amount : ℕ) : Session := s.setSource (s.source.drop amount)

/-- `obexSourceEmpty`. -/
def obexSourceEmpty (s : Session) : Session :=
  let s := if s.srcUsed ≠ 0 then (s.sourceDrop s.srcUsed).setSrcUsed 0 else s
  if s.sourceBoundary ≠ 0 then s.emit .moreData else s

/-- The size of a packet's header, with the connection identifier of the session if it has
one. -/
def pktHdrLen (s : Session) (opcode : UInt8) : ℕ :=
  let hdrLen :=
    if opcode = obexSetPath then obexPktSetpathHdrSize
    else if opcode = obexConnectOpcode then obexPktConnectHdrSize
    else obexPktHdrSize
  if s.connID ≠ obexInvalidUint32 then hdrLen + obexUintHdrSize else hdrLen

/-- `obexNewPacket`: the octets left for headers, 0 on failure. -/
def obexNewPacket (s : Session) (size : ℕ) (opcode : UInt8) : ℕ × Session :=
  if s.pktLen ≠ 0 then (0, s)
  else
    let hdrLen := pktHdrLen s opcode
    let allocLen := obexSinkSlack s
    if allocLen < hdrLen + size then (0, s)
    else
      let (ok, s) := obexSinkClaim s hdrLen
      if ok then
        let s :=
          if s.connID ≠ obexInvalidUint32 then
            (obexAddUint32Header (s.setPktLen (hdrLen - obexUintHdrSize)) obexConnectidHdr
              s.connID).2
          else s.setPktLen hdrLen
        (u16 (allocLen - hdrLen), s)
      else (0, s)

/-- The room that the Who or Target header of a CONNECT packet takes. -/
def connectDataLen (s : Session) (opcode : UInt8) : ℕ :=
  if s.targetWho.isSome ∧ (opcode = ObexStatus.remoteSuccess ∨ opcode = obexConnectOpcode)
  then u16 (obexPktHdrSize + s.sizeTargetWho) else 0

/-- The octets of a CONNECT packet header, the length field left out. -/
def Session.storeConnectHeader (s : Session) (opcode : UInt8) : Session :=
  ((s.store 0 [opcode]).store 3 [obexVersion, 0]).store 5 (uint16ToUint8 s.maxPktLen)

/-- `obexFrameConnectPkt`. -/
def obexFrameConnectPkt (s : Session) (opcode : UInt8) : Bool × Session :=
  let dataLen := connectDataLen s opcode
  let (allocLen, s) := obexNewPacket s dataLen obexConnectOpcode
  if allocLen = 0 then (false, s)
  else
    let s := s.storeConnectHeader opcode
    if dataLen ≠ 0 then
      obexAddSeqHeader s (if s.isObexServer then obexWhoHdr else obexTargetHdr)
        (s.targetWho.getD [])
    else (true, s)

/-- `obexFlushPacket`. -/
def obexFlushPacket (s : Session) (opcode : UInt8) : Session :=
  let s := obexSourceEmpty s
  let s := s.store 0 [opcode]
  let s := s.store 1 (uint16ToUint8 s.pktLen)
  obexObjFlush s true

/-- `obexStoreConnectionID`. -/
def obexStoreConnectionID (s : Session) (pkt : List UInt8) (len : ℕ) : Option (Bool × Session) :=
  (obexGetUint32Header pkt len obexConnectidHdr).map fun connID =>
    (connID ≠ obexInvalidUint32, { s with connID })

/-- `obexValidateConnectionID`: the verdict, and the length of the unprocessed packet. -/
def obexValidateConnectionID (s : Session) (pkt : List UInt8) (len : ℕ) : Option (Bool × ℕ) :=
  let isSetPath := pkt.getD 0 0 = obexSetPath
  if isSetPath ∧ len < obexPktSetpathHdrSize then some (false, len)
  else
    let hdrSize := if isSetPath then obexPktSetpathHdrSize else obexPktHdrSize
    let len := u16 (len - hdrSize)
    (obexGetUint32Header (pkt.drop hdrSize) len obexConnectidHdr).map fun connID =>
      let len := if connID ≠ obexInvalidUint32 then u16 (len - obexUintHdrSize) else len
      (s.connID = connID, len)

/-- `obexSendAuthPacket` with the octets `src` of the digest header, none of them for a NULL
source. -/
def obexSendAuthPacket (s : Session) (hdr : UInt8) (src : List UInt8) : Session :=
  let (ok, s) := if src.length ≠ 0 then obexAddSeqHeader s hdr src else (true, s)
  if ok then
    let s := if hdr = obexAuthChallenge then s.setState .authConnect else { s with auth := false }
    if s.isObexServer then
      let response := if s.auth then obexUnauthorizedRsp else ObexStatus.remoteSuccess
      let s := obexFlushPacket s response
      if response = ObexStatus.remoteSuccess then obexConnectCfm s response else s
    else if s.isObexInAuthConnect ∧ ¬ s.auth then obexFlushPacket s obexConnectOpcode
    else s
  else obexConnectCfm s ObexStatus.failure

end Cbps.Obex
