import Cbps.Obex.Session

/-!
# Encoding and decoding of OBEX objects

The model of `obex_object_handler.c`, and of the sink arithmetic of `obex_packet_handler.c`
that it rests on. A packet pointer is the memory from that address on, and a pointer into a
packet is an offset.

`obexFetchHeader` moves a 16-bit offset that can stand still or wrap around, so it is given
one step more than there are offsets: `none` says that it never returns. So does the copy
loop of `obexAddUnicodeHeader`, whose counters have eight bits.
-/

namespace Cbps.Obex

/-! ### Header classes -/

def isUnicodeHdr (op : UInt8) : Bool := op &&& 0xC0 == 0x00
def isByteSeqHdr (op : UInt8) : Bool := op &&& 0xC0 == 0x40
def isByteHdr (op : UInt8) : Bool := op &&& 0xC0 == 0x80
def isUintHdr (op : UInt8) : Bool := op &&& 0xC0 == 0xC0

/-! ### Fetching -/

/-- The loop of `obexFetchHeader` at offset `processLen`. -/
def fetchLoop (pkt : List UInt8) (len : ℕ) (opcode : UInt8) : (fuel processLen : ℕ) → Option ℕ
  | 0, _ => none
  | fuel + 1, processLen =>
    if len > processLen then
      let op := pkt.getD processLen 0
      if op = opcode then some processLen
      else if isByteHdr op then
        fetchLoop pkt len opcode fuel (u16 (processLen + obexByteHdrSize))
      else if isUintHdr op then
        fetchLoop pkt len opcode fuel (u16 (processLen + obexUintHdrSize))
      else
        fetchLoop pkt len opcode fuel (u16 (processLen + uint8ToUint16 pkt (processLen + 1)))
    else some obexInvalidUint16

/-- `obexFetchHeader`: the offset of the first header with this opcode. -/
def obexFetchHeader (pkt : List UInt8) (len : ℕ) (opcode : UInt8) : Option ℕ :=
  fetchLoop pkt len opcode 65537 0

/-- `obexGetUint32Header`. -/
def obexGetUint32Header (pkt : List UInt8) (len : ℕ) (opcode : UInt8) : Option ℕ :=
  (obexFetchHeader pkt len opcode).map fun offset =>
    if offset = obexInvalidUint16 then obexInvalidUint32
    else 2 ^ 24 * (pkt.getD (offset + 1) 0).toNat + 2 ^ 16 * (pkt.getD (offset + 2) 0).toNat +
      2 ^ 8 * (pkt.getD (offset + 3) 0).toNat + (pkt.getD (offset + 4) 0).toNat

/-- `obexGetUint8Header`. -/
def obexGetUint8Header (pkt : List UInt8) (len : ℕ) (opcode : UInt8) : Option UInt8 :=
  (obexFetchHeader pkt len opcode).map fun offset =>
    if offset = obexInvalidUint16 then obexInvalidUint8 else pkt.getD (offset + 1) 0

/-- `obexGetSeqHeader`: the offset of the value (`none` for NULL) and its length. -/
def obexGetSeqHeader (pkt : List UInt8) (len : ℕ) (opcode : UInt8) : Option (Option ℕ × ℕ) :=
  (obexFetchHeader pkt len opcode).map fun offset =>
    if offset = obexInvalidUint16 then (none, 0)
    else (some (offset + obexSeqHdrSize), u16 (uint8ToUint16 pkt (offset + 1) - obexSeqHdrSize))

/-- The loop of `obexGetTLVHeaderValue` at `offset`. -/
def tlvLoop (pkt : List UInt8) (pktLen : ℕ) (tag : UInt8) :
    (fuel offset : ℕ) → Option (Option ℕ × ℕ)
  | 0, _ => none
  | fuel + 1, offset =>
    let dataOffset := u16 (offset + obexTlvHdrSize)
    if dataOffset < pktLen then
      let size := (pkt.getD (offset + 1) 0).toNat
      if pkt.getD offset 0 = tag ∧ size ≤ pktLen - dataOffset then some (some (offset + 2), size)
      else tlvLoop pkt pktLen tag fuel (u16 (offset + size + obexTlvHdrSize))
    else some (none, 0)

/-- `obexGetTLVHeaderValue`: the offset of the value (`none` for NULL) and its length. -/
def obexGetTLVHeaderValue (pkt : List UInt8) (pktLen : ℕ) (tag : UInt8) :
    Option (Option ℕ × ℕ) := tlvLoop pkt pktLen tag 65537 0

/-- `obexGetDigest`: the offset and the length of a header value that starts with a digest.
The tag that is looked for is `OBEX_REQ_NONCE_TAG`, whatever the argument, and a NULL header
is searched with length zero. -/
def obexGetDigest (pkt : List UInt8) (len : ℕ) (hdrId _tag : UInt8) : Option (Option ℕ × ℕ) :=
  (obexGetSeqHeader pkt len hdrId).bind fun (value, len) =>
    (obexGetTLVHeaderValue (pkt.drop (value.getD 0)) len obexReqNonceTag).map fun (tlv, valLen) =>
      if tlv.isSome ∧ valLen = obexSizeDigest then (value, len) else (none, 0)

/-! ### Room in the sink -/

/-- The macro `obexSinkSpace`: claimed octets that the packet does not use yet. -/
def obexSinkSpace (s : Session) : ℤ := s.sink.claimed.length - s.pktLen

/-- `obexSinkSlack`. -/
def obexSinkSlack (s : Session) : ℕ :=
  let maxLen := u16 (s.sink.slack + s.sink.claimed.length)
  let maxLen := if maxLen > s.maxPktLen then s.maxPktLen else maxLen
  u16 (maxLen - s.pktLen)

/-- `obexSinkClaim`. -/
def obexSinkClaim (s : Session) (len : ℕ) : Bool × Session :=
  let space := u16 (obexSinkSpace s)
  if obexSinkSpace s ≥ len then (true, s)
  else if len > obexSinkSlack s then (false, s)
  else
    let (offset, sink) := s.sink.claim (u16 (len - space))
    (offset ≠ obexInvalidUint16, s.setSink sink)

/-! ### Adding headers -/

/-- `obexAddUint32Header`. -/
def obexAddUint32Header (s : Session) (opcode : UInt8) (value : ℕ) : Bool × Session :=
  let pkt := s.pktLen
  let (ok, s) := obexSinkClaim s obexUintHdrSize
  if ok then
    let s := s.store pkt [opcode, UInt8.ofNat (value / 2 ^ 24), UInt8.ofNat (value / 2 ^ 16),
      UInt8.ofNat (value / 2 ^ 8), UInt8.ofNat value]
    (true, s.setPktLen (u16 (s.pktLen + obexUintHdrSize)))
  else (false, s)

/-- `obexAddUint8Header`. -/
def obexAddUint8Header (s : Session) (opcode value : UInt8) : Bool × Session :=
  let pkt := s.pktLen
  let (ok, s) := obexSinkClaim s obexByteHdrSize
  if ok then
    let s := s.store pkt [opcode, value]
    (true, s.setPktLen (u16 (s.pktLen + obexByteHdrSize)))
  else (false, s)

/-- `obexAddEmptyHeader`: a header of `size` octets `'0'`. -/
def obexAddEmptyHeader (s : Session) (hdr : UInt8) (size : ℕ) : Bool × Session :=
  let hdrLen := u16 (obexSeqHdrSize + size)
  let dest := s.pktLen
  let (ok, s) := obexSinkClaim s hdrLen
  if ok then
    let s := s.store dest [hdr]
    let s := s.store (dest + 3) (List.replicate size 0x30)
    let s := s.store (dest + 1) (uint16ToUint8 (u16 (size + obexSeqHdrSize)))
    (true, s.setPktLen (u16 (s.pktLen + hdrLen)))
  else (false, s)

/-- `obexAddSeqHeader` with the octets `src` of the source, `size` of them. -/
def obexAddSeqHeader (s : Session) (hdr : UInt8) (src : List UInt8) : Bool × Session :=
  let size := src.length
  let dest := s.pktLen
  if obexSinkSlack s < size + obexSeqHdrSize then (false, s)
  else
    let (ok, s) := obexAddEmptyHeader s hdr 0
    if ok then
      let s :=
        if obexSinkSpace s ≠ 0 then (obexSinkClaim s size).2.store (dest + 3) src
        else s.setSink (s.sink.move src)
      let s := s.setPktLen (u16 (s.pktLen + size))
      (true, s.store (dest + 1) (uint16ToUint8 (u16 (size + obexSeqHdrSize))))
    else (false, s)

/-- The copy loop of `obexAddUnicodeHeader`: `i` and `j` are `u8`, `size` is `u16`. -/
def unicodeLoop (unicode : ℕ) (str : List UInt8) :
    (fuel : ℕ) → (i j : UInt8) → Session → Option Session
  | 0, _, _, _ => none
  | fuel + 1, i, j, s =>
    if i.toNat < str.length then
      unicodeLoop unicode str fuel (i + 1) (j + 2)
        (s.store (unicode + j.toNat) [str.getD i.toNat 0])
    else some s

/-- The size of the Unicode text for the `size` octets `str` of the source, with the terminating
zero if they have none; `before` is the octet in front of them, which is read for an empty
name. -/
def unicodeLength (str : List UInt8) (before : UInt8) : ℕ :=
  let size := str.length
  let unicodeLen := u16 (size * 2)
  let last := if size = 0 then before else str.getD (size - 1) 0
  if last ≠ 0 then u16 (unicodeLen + 2) else unicodeLen

/-- `obexAddUnicodeHeader`. -/
def obexAddUnicodeHeader (s : Session) (hdr : UInt8) (str : List UInt8) (before : UInt8) :
    Option (Bool × Session) :=
  let dest := s.pktLen
  let unicode := dest + 3
  let unicodeLen := unicodeLength str before
  if obexSinkSlack s < unicodeLen + obexSeqHdrSize then some (false, s)
  else
    let (ok, s) := obexAddEmptyHeader s hdr 0
    if ok then
      let s := (obexSinkClaim s unicodeLen).2
      let s := s.store unicode (List.replicate unicodeLen 0)
      (unicodeLoop unicode str 257 0 1 s).map fun s =>
        let s := s.store (unicode + unicodeLen - 1) [0]
        let s := s.setPktLen (u16 (s.pktLen + unicodeLen))
        (true, s.store (dest + 1) (uint16ToUint8 (u16 (unicodeLen + obexSeqHdrSize))))
    else some (false, s)

/-! ### Other objects -/

/-- `obexObjFlush`. -/
def obexObjFlush (s : Session) (out : Bool) : Session :=
  if out then
    let (octets, sink) := s.sink.flush s.pktLen
    ((s.emit (.flushed octets)).setSink sink).setPktLen 0
  else s.setPktLen 0

/-- `obexFrameTLVHeader`. -/
def obexFrameTLVHeader (tag : UInt8) (data : List UInt8) : List UInt8 :=
  tag :: UInt8.ofNat data.length :: data

end Cbps.Obex
