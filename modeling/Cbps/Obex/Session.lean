import Cbps.Lib.Memory
import Mathlib.Algebra.Ring.Nat
import Mathlib.Data.Int.Notation

/-!
# The OBEX session

The data of `obex_private.h`: the session structure, its transport (a sink with claimed
octets, a source with received octets) and the messages of `obex_messages.c`. Everything the
library does to the outside, and every packet it starts to handle, is appended to `log`; no
function reads the log.

The build is the one without `GOEP_VERSION_2_0`: sessions run over RFCOMM, and the single
response mode macros are empty. `u16` values are natural numbers, with `u16` where the C code
converts an `int` that may be out of range.
-/

namespace Cbps.Obex

/-- The conversion of an `int` to `u16`. -/
def u16 (x : ℤ) : ℕ := Int.toNat (x % 65536)

theorem u16_lt (x : ℤ) : u16 x < 65536 := by
  rw [u16]
  omega

theorem u16_of_lt {n : ℕ} (h : n < 65536) : u16 n = n := by
  rw [u16]
  omega

/-! ### Constants -/

def obexMaxPacketSize : ℕ := 895
def obexPktHdrSize : ℕ := 3
def obexPktConnectHdrSize : ℕ := 7
def obexPktSetpathHdrSize : ℕ := 5
def obexByteHdrSize : ℕ := 2
def obexUintHdrSize : ℕ := 5
def obexSeqHdrSize : ℕ := 3
def obexMinPutReqSize : ℕ := 7
def obexMinGetReqSize : ℕ := 8
def obexEmptyBodySize : ℕ := 4
def obexTlvHdrSize : ℕ := 2
def obexSizeDigest : ℕ := 16
def obexTotalDigestSize : ℕ := 18
def obexMaxValSize : ℕ := 20

def obexReqNonceTag : UInt8 := 0x00
def obexRspDigestTag : UInt8 := 0x00
def obexReqOptionsTag : UInt8 := 0x01
def obexRspUsridTag : UInt8 := 0x01
def obexReqRealmTag : UInt8 := 0x02

def obexVersion : UInt8 := 0x10

def obexConnectidHdr : UInt8 := 0xCB
def obexWhoHdr : UInt8 := 0x4A
def obexTargetHdr : UInt8 := 0x46
def obexAuthChallenge : UInt8 := 0x4D
def obexAuthResponse : UInt8 := 0x4E
def obexNameHdr : UInt8 := 0x01

def obexInvalidUint32 : ℕ := 0xFFFFFFFF
def obexInvalidUint16 : ℕ := 0xFFFF
def obexInvalidUint8 : UInt8 := 0xFF

def obexPut : UInt8 := 0x02
def obexPutFinal : UInt8 := 0x82
def obexGet : UInt8 := 0x03
def obexGetFinal : UInt8 := 0x83
def obexConnectOpcode : UInt8 := 0x80
def obexSetPath : UInt8 := 0x85
def obexAbort : UInt8 := 0xFF
def obexDisconnect : UInt8 := 0x81

def obexUnauthorizedRsp : UInt8 := 0x41

/-- The octet of `ObexStatus` and `ObexResponse`. -/
abbrev ObexStatus := UInt8

namespace ObexStatus

def success : ObexStatus := 0
def failure : ObexStatus := 1
def localUnauth : ObexStatus := 2
def invalidCommand : ObexStatus := 3
def invalidParameters : ObexStatus := 4
def invalidResponse : ObexStatus := 5
def localAbort : ObexStatus := 7
def «continue» : ObexStatus := 0x90
def remoteSuccess : ObexStatus := 0xA0
def badRequest : ObexStatus := 0xC0
def unauthorized : ObexStatus := 0xC1
def preconFail : ObexStatus := 0xCC
def notImplemented : ObexStatus := 0xD1
def srvUnavailable : ObexStatus := 0xD3
def unknownError : ObexStatus := 0xE2

end ObexStatus

/-! ### Roles and states -/

inductive ObexRole
  | rfcommServer
  | rfcommClient
  | l2capServer
  | l2capClient
  deriving DecidableEq, Repr

/-- `ObexState`, in the order of the C enumeration. -/
inductive ObexState
  | idle
  | session
  | connect
  | authConnect
  | connected
  | get
  | put
  | setpath
  | delete
  | abortGet
  | abortPut
  | disconnect
  deriving DecidableEq, Repr

/-- The value of the enumerator, as `IsObexReady` compares it. -/
def ObexState.toNat : ObexState → ℕ
  | .idle => 0
  | .session => 1
  | .connect => 2
  | .authConnect => 3
  | .connected => 4
  | .get => 5
  | .put => 6
  | .setpath => 7
  | .delete => 8
  | .abortGet => 9
  | .abortPut => 10
  | .disconnect => 11

/-! ### Messages and effects -/

/-- The identifiers of the indications and confirmations that carry headers. -/
inductive ObexMessageId
  | putCfm
  | getCfm
  | setPathCfm
  | deleteCfm
  | putInd
  | getInd
  | setPathInd
  deriving DecidableEq, Repr

/-- The messages to the application task. -/
inductive AppMessage
  | createSessionCfm (status : ObexStatus)
  | connectCfm (status : ObexStatus) (maxPacketLen : ℕ)
  | deleteSessionInd
  | statusCfm (id : ObexMessageId) (status : ObexStatus) (hdrsLen : ℕ)
  | commandInd (id : ObexMessageId) (final : Bool) (hdrsLen : ℕ)
  | abortInd
  | authReqInd
  | authClgInd (nonce : List UInt8) (options : UInt8) (realm : List UInt8)
  | authRspCfm (request userId : List UInt8)
  deriving DecidableEq, Repr

/-- What the library does to the outside. `received` is history only: the state in which the
handlers were entered with a complete packet, the memory at the packet and its length. -/
inductive Effect
  | app (message : AppMessage)
  | flushed (pkt : List UInt8)
  | moreData
  | deleteLater
  | rfcommDisconnectRequest
  | rfcommDisconnectResponse
  | received (state : ObexState) (pkt : List UInt8) (len : ℕ)
  deriving DecidableEq, Repr

/-! ### The transport -/

/-- A sink: octets claimed and not yet flushed, and how many more can be claimed. A stream
buffer is smaller than 64 KiB. -/
structure Sink where
  claimed : List UInt8
  slack : ℕ
  fits : claimed.length + slack < 65536

/-- `SinkClaim`, with the offset it returns. Octets just claimed hold nothing yet. -/
def Sink.claim (k : Sink) (extra : ℕ) : ℕ × Sink :=
  if h : extra ≤ k.slack then
    (k.claimed.length,
      { claimed := k.claimed ++ List.replicate extra 0
        slack := k.slack - extra
        fits := by
          have := k.fits
          rw [List.length_append, List.length_replicate]
          omega })
  else (obexInvalidUint16, k)

/-- A store through the pointer of `SinkMap`. Only claimed octets are accessible. -/
def Sink.store (k : Sink) (off : ℕ) (octets : List UInt8) : Sink :=
  { k with
    claimed := Lib.writeAt k.claimed off octets
    fits := by rw [Lib.length_writeAt]; exact k.fits }

/-- `SinkFlush`: the octets that go out. A sink refuses to flush more than is claimed. -/
def Sink.flush (k : Sink) (amount : ℕ) : List UInt8 × Sink :=
  if amount ≤ k.claimed.length then
    (k.claimed.take amount,
      { k with
        claimed := k.claimed.drop amount
        fits := by
          have := k.fits
          rw [List.length_drop]
          omega })
  else ([], k)

/-- `StreamMove` from a source that holds `octets`: all of them or, without room, none. -/
def Sink.move (k : Sink) (octets : List UInt8) : Sink :=
  if h : octets.length ≤ k.slack then
    { claimed := k.claimed ++ octets
      slack := k.slack - octets.length
      fits := by
        have := k.fits
        rw [List.length_append]
        omega }
  else k

/-- The remote side drains the stream: the slack becomes `n`, as far as the buffer allows. -/
def Sink.setSlack (k : Sink) (n : ℕ) : Sink :=
  { k with
    slack := min n (65535 - k.claimed.length)
    fits := by
      have := k.fits
      omega }

/-! ### The session -/

/-- `struct __obex`. The source is the stream of received octets; `targetWho` is the pointer
and the size of the Target, `none` for a NULL pointer. -/
structure Session where
  role : ObexRole
  state : ObexState
  auth : Bool
  targetWho : Option (List UInt8)
  connID : ℕ
  maxPktLen : ℕ
  pktLen : ℕ
  srcUsed : ℕ
  sink : Sink
  source : List UInt8
  log : List Effect

namespace Session

variable (s : Session)

def sizeTargetWho : ℕ := (s.targetWho.getD []).length

def isObexInIdle : Bool := s.state = .idle
def isObexDisconnected : Bool := s.state = .session
def isObexInConnect : Bool := s.state = .connect
def isObexConnected : Bool := s.state = .connected
def isObexReady : Bool := ObexState.connected.toNat ≤ s.state.toNat
def isObexInPut : Bool := s.state = .put
def isObexInGet : Bool := s.state = .get
def isObexConnecting : Bool := s.state = .connect || s.state = .authConnect
def isObexInAuthConnect : Bool := s.state = .authConnect
def isObexServer : Bool := s.role = .rfcommServer || s.role = .l2capServer
def isObexClient : Bool := s.role = .rfcommClient || s.role = .l2capClient

/-- The octets of the outgoing packet framed so far. -/
def packet : List UInt8 := s.sink.claimed.take s.pktLen

/-- Append to the log. -/
def emit (e : Effect) : Session := { s with log := s.log ++ [e] }

/-- `MessageSend` to the application task. -/
def sendApp (m : AppMessage) : Session := s.emit (.app m)

def setState (st : ObexState) : Session := { s with state := st }

def setPktLen (n : ℕ) : Session := { s with pktLen := n }

def setSrcUsed (n : ℕ) : Session := { s with srcUsed := n }

def setSink (k : Sink) : Session := { s with sink := k }

def setSource (octets : List UInt8) : Session := { s with source := octets }

/-- A store through `SinkMap`. -/
def store (off : ℕ) (octets : List UInt8) : Session := s.setSink (s.sink.store off octets)

end Session

/-! ### Octets -/

/-- The octets at `off, …, off + n - 1` of a memory that reads zero where nothing is known. -/
def octetsAt (mem : List UInt8) (off n : ℕ) : List UInt8 :=
  (List.range n).map fun i => mem.getD (off + i) 0

/-- `OBEX_UINT8_TO_UINT16`. -/
def uint8ToUint16 (mem : List UInt8) (off : ℕ) : ℕ :=
  256 * (mem.getD off 0).toNat + (mem.getD (off + 1) 0).toNat

/-- The two octets that `OBEX_UINT16_TO_UINT8` stores. -/
def uint16ToUint8 (x : ℕ) : List UInt8 := [UInt8.ofNat (x / 256), UInt8.ofNat x]

/-! ### `obex_messages.c` -/

def obexCreateSessionCfm (s : Session) (status : ObexStatus) : Session :=
  s.sendApp (.createSessionCfm status)

def obexDeleteSessionInd (s : Session) : Session :=
  let s := if s.isObexReady then s.setState .session else s
  s.sendApp .deleteSessionInd

def obexConnectCfm (s : Session) (status : ObexStatus) : Session :=
  let s := s.sendApp (.connectCfm status s.maxPktLen)
  if status = ObexStatus.remoteSuccess then s.setState .connected
  else if s.isObexConnecting then obexDeleteSessionInd s
  else s

def obexStatusCfm (s : Session) (status : ObexStatus) (id : ObexMessageId) (srcLen : ℕ) : Session :=
  s.sendApp (.statusCfm id status srcLen)

def obexCommandInd (s : Session) (id : ObexMessageId) (final : Bool) (srcLen : ℕ) : Session :=
  s.sendApp (.commandInd id final srcLen)

def obexAbortInd (s : Session) : Session := s.sendApp .abortInd

def obexAuthReqInd (s : Session) : Session := s.sendApp .authReqInd

/-- `obexAuthClgInd`: the nonce, then the optional options and realm of a challenge. -/
def obexAuthClgInd (s : Session) (pkt : List UInt8) (pktLen : ℕ) : Session :=
  let nonce := octetsAt pkt obexTlvHdrSize obexSizeDigest
  let offset := obexTlvHdrSize + obexSizeDigest
  let hasOptions := pktLen > offset + obexTlvHdrSize && pkt.getD offset 0 == obexReqOptionsTag
  let options := if hasOptions then pkt.getD (offset + obexTlvHdrSize) 0 else 0
  let offset := if hasOptions then offset + obexTlvHdrSize + 1 else offset
  let hasRealm := pktLen > offset + obexTlvHdrSize && pkt.getD offset 0 == obexReqRealmTag &&
    decide ((pkt.getD (offset + 1) 0).toNat ≤ pktLen - (offset + 1))
  let realm := if hasRealm then octetsAt pkt (offset + 2) (pkt.getD (offset + 1) 0).toNat else []
  s.sendApp (.authClgInd nonce options realm)

/-- `obexAuthRspCfm`: the request digest and the optional user identifier of a response. -/
def obexAuthRspCfm (s : Session) (pkt : List UInt8) (pktLen : ℕ) : Session :=
  let size :=
    if pktLen > obexTotalDigestSize + obexTlvHdrSize &&
      pkt.getD obexTotalDigestSize 0 == obexRspUsridTag
    then min (pkt.getD (obexTotalDigestSize + 1) 0).toNat obexMaxValSize else 0
  let offset := obexTlvHdrSize + obexTotalDigestSize
  let userId := if pktLen ≥ offset + size then octetsAt pkt offset size else []
  s.sendApp (.authRspCfm (octetsAt pkt obexTlvHdrSize obexSizeDigest) userId)

end Cbps.Obex
