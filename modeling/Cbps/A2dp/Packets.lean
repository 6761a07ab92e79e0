import Cbps.A2dp.Caps
import Cbps.Lib.Sink
import Mathlib.Algebra.Ring.Nat

/-!
# Fragments of signalling packets

`a2dp_packet_handler.c`: `sendPacket` claims a header in front of a payload that is in the sink, and
sends it in fragments that fit in the MTU. `a2dpHandleSignalPacket` puts the fragments together again.

The header is an array of `u16`, of which as many octets are copied as it has elements. `roundTrip_iff`
says for which packets this does no harm: those of one fragment that carry the signal id zero.
-/

namespace Cbps.A2dp

open Lib List

/-! ### The sender -/

/-- `avdtp_packet_type_single` and its siblings. -/
inductive PacketType
  | single
  | start
  | continued
  | last
  deriving DecidableEq, Repr

def PacketType.code : PacketType → Octet
  | .single => 0
  | .start => 1
  | .continued => 2
  | .last => 3

/-- `(ptr[0] >> 2) & 3`. -/
def packetType (header : Octet) : PacketType :=
  if header >>> 2 &&& 3 = PacketType.single.code then .single
  else if header >>> 2 &&& 3 = PacketType.start.code then .start
  else if header >>> 2 &&& 3 = PacketType.continued.code then .continued
  else .last

/-- `(signalling_header & 0xF3) | (packet_type << 2)`. -/
def fragmentHeader (signallingHeader : Octet) (t : PacketType) : Octet :=
  (signallingHeader &&& 0xF3) ||| (t.code <<< 2)

/-- The octets of an array of `u16` in memory. -/
def octetsOf (header : List (BitVec 16)) : List Octet :=
  header.flatMap fun x : BitVec 16 => [x.setWidth 8, (x >>> 8).setWidth 8]

/-- `sinkFlushHeader`, on a sink that has room. -/
def sinkFlushHeader (k : Lib.Sink Octet) (amount : ℕ) (header : List (BitVec 16)) (length : ℕ) :
    Lib.Sink Octet :=
  let k := k.claim 0 length
  let moved := moveWithin k.claimed length 0 amount
  let written := writeAt moved 0 ((octetsOf header).take length)
  Lib.Sink.flush { k with claimed := written } (amount + length)

/-- The loop of `sendPacket`, with the size of what is left. -/
def sendContinuations (mtu : ℕ) (header : Octet) : ℕ → ℕ → Lib.Sink Octet → ℕ × Lib.Sink Octet
  | 0, size, k => (size, k)
  | n + 1, size, k =>
    if mtu - 1 < size then
      sendContinuations mtu header n (size - (mtu - 1))
        (sinkFlushHeader k (mtu - 1) [header.setWidth 16] 1)
    else (size, k)

/-- `sendPacket`, with the payload in the sink. -/
def sendPacket (mtu : ℕ) (signallingHeader signalId : Octet) (payloadSize : ℕ) (k : Lib.Sink Octet) :
    Lib.Sink Octet :=
  let header t := (fragmentHeader signallingHeader t).setWidth 16
  if payloadSize < mtu - 1 then
    sinkFlushHeader k payloadSize [header .single, signalId.setWidth 16] 2
  else
    let fragments := BitVec.ofNat 16 ((payloadSize + mtu) / (mtu - 1))
    let k := sinkFlushHeader k (mtu - 3) [header .start, fragments, signalId.setWidth 16] 3
    let left := sendContinuations mtu (fragmentHeader signallingHeader .continued) payloadSize
      (payloadSize - (mtu - 3)) k
    sinkFlushHeader left.2 left.1 [header .last] 1

/-! ### The receiver -/

/-- `received_packet`, with `received_packet_length`, a field of 12 bits. -/
structure Packet where
  octets : List Octet
  length : ℕ
  deriving DecidableEq, Repr

/-- What a fragment leaves under reassembly, and the packet that it completes, with the type of the
fragment. -/
structure Reassembly where
  received : Option Packet
  complete : Option (PacketType × Packet)
  deriving DecidableEq, Repr

/-- One turn of `a2dpHandleSignalPacket`, up to the call of `processSignalPacket`. -/
def reassemble (received : Option Packet) (fragment : List Octet) : Reassembly :=
  match packetType (fragment.getD 0 0) with
  | .single => ⟨none, some (.single, ⟨fragment, fragment.length % 2 ^ 12⟩)⟩
  | .start =>
    -- the number of fragments is dropped
    ⟨some ⟨fragment.take 1 ++ fragment.drop 2, (fragment.length - 1) % 2 ^ 12⟩, none⟩
  | t =>
    match received with
    | none => ⟨none, none⟩
    | some p =>
      if p.octets.getD 0 0 &&& 0xf0 ≠ fragment.getD 0 0 &&& 0xf0 then ⟨some p, none⟩
      else
        let grown : Packet := ⟨p.octets.take p.length ++ fragment.drop 1,
          (p.length + (fragment.length - 1)) % 2 ^ 12⟩
        if t = .last then ⟨none, some (.last, grown)⟩ else ⟨some grown, none⟩

/-- The packets that `processSignalPacket` is called with, when it processes each of them. -/
def processed : Option Packet → List (List Octet) → List Packet
  | _, [] => []
  | received, fragment :: fragments =>
    let r := reassemble received fragment
    (r.complete.map Prod.snd).toList ++ processed r.received fragments

/-! ### Round trips -/

/-- The packets that a payload is sent in. -/
def packetsOf (mtu : ℕ) (signallingHeader signalId : Octet) (payload : List Octet) : List (List Octet) :=
  (sendPacket mtu signallingHeader signalId payload.length ⟨[], payload⟩).sent

/-- The packets fit in the MTU, the peer processes one packet with the label, the message type, the signal
id and the payload, and the number of fragments is announced. -/
structure RoundTrip (mtu : ℕ) (signallingHeader signalId : Octet) (payload : List Octet) : Prop where
  fits : ∀ p ∈ packetsOf mtu signallingHeader signalId payload, p.length ≤ mtu
  received : ∃ header : Octet, header &&& 0xF3 = signallingHeader &&& 0xF3 ∧
    processed none (packetsOf mtu signallingHeader signalId payload) =
      [⟨header :: signalId :: payload, payload.length + 2⟩]
  announced : 1 < (packetsOf mtu signallingHeader signalId payload).length →
    (((packetsOf mtu signallingHeader signalId payload).headD []).getD 1 0).toNat =
      (packetsOf mtu signallingHeader signalId payload).length

/-! ### What the sender sends -/

section Sender

variable {k : Lib.Sink Octet} {amount length : ℕ} {header : List (BitVec 16)}

theorem claimed_sinkFlushHeader (hamount : amount ≤ k.claimed.length)
    (hlength : length ≤ (octetsOf header).length) :
    writeAt (moveWithin (k.claim 0 length).claimed length 0 amount) 0
        ((octetsOf header).take length) =
      (octetsOf header).take length ++ k.claimed.take amount ++
        (k.claimed ++ List.replicate length 0).drop (length + amount) := by
  have hclaimed : (k.claim 0 length).claimed = k.claimed ++ List.replicate length 0 := rfl
  have hread : readAt (k.claim 0 length).claimed 0 amount = k.claimed.take amount := by
    rw [readAt, drop_zero, hclaimed, take_append_of_le_length hamount]
  have htake : (k.claimed.take amount).length = amount := length_take_of_le hamount
  have htotal : (k.claim 0 length).claimed.length = k.claimed.length + length := by
    rw [hclaimed, length_append, length_replicate]
  have hmoved : writeAt (k.claim 0 length).claimed length (k.claimed.take amount) =
      (k.claimed ++ List.replicate length 0).take length ++ k.claimed.take amount ++
        (k.claimed ++ List.replicate length 0).drop (length + amount) := by
    rw [writeAt_eq (by rw [htake, htotal]; omega), htake, hclaimed]
  rw [moveWithin, hread, hmoved]
  have hhead : ((octetsOf header).take length).length = length := length_take_of_le hlength
  have hbelow : ((k.claimed ++ List.replicate length 0).take length).length = length :=
    length_take_of_le (by rw [← hclaimed, htotal]; omega)
  -- the header takes the place of the octets that have been moved away
  rw [writeAt_eq, hhead, take_zero, nil_append, Nat.zero_add, append_assoc,
    drop_left' hbelow, ← append_assoc]
  rw [length_append, length_append, hhead, hbelow]
  omega

theorem sent_sinkFlushHeader (hamount : amount ≤ k.claimed.length)
    (hlength : length ≤ (octetsOf header).length) :
    (sinkFlushHeader k amount header length).sent =
      k.sent ++ [(octetsOf header).take length ++ k.claimed.take amount] := by
  have hfront : ((octetsOf header).take length ++ k.claimed.take amount).length = amount + length := by
    rw [length_append, length_take_of_le hlength, length_take_of_le hamount, Nat.add_comm]
  rw [sinkFlushHeader, claimed_sinkFlushHeader hamount hlength, ← hfront, Lib.Sink.flush_append rfl]
  rfl

theorem length_sinkFlushHeader (hamount : amount ≤ k.claimed.length)
    (hlength : length ≤ (octetsOf header).length) :
    (sinkFlushHeader k amount header length).claimed.length = k.claimed.length - amount := by
  have hfront : ((octetsOf header).take length ++ k.claimed.take amount).length = amount + length := by
    rw [length_append, length_take_of_le hlength, length_take_of_le hamount, Nat.add_comm]
  rw [sinkFlushHeader, claimed_sinkFlushHeader hamount hlength, ← hfront, Lib.Sink.flush_append rfl]
  simp only [length_drop, length_append, length_replicate]
  omega

theorem sendContinuations_spec (mtu : ℕ) (octet : Octet) (n size : ℕ) (hsize : size ≤ k.claimed.length) :
    ∃ ps, (sendContinuations mtu octet n size k).2.sent = k.sent ++ ps ∧
      (sendContinuations mtu octet n size k).1 ≤ (sendContinuations mtu octet n size k).2.claimed.length := by
  induction n generalizing size k with
  | zero => exact ⟨[], (append_nil _).symm, hsize⟩
  | succ n ih =>
    rw [sendContinuations]
    split_ifs with hmore
    · have hamount : mtu - 1 ≤ k.claimed.length := Nat.le_trans (Nat.le_of_lt hmore) hsize
      have hone : 1 ≤ (octetsOf [octet.setWidth 16]).length := Nat.le_succ 1
      obtain ⟨ps, hsent, hleft⟩ := ih (size - (mtu - 1))
        (k := sinkFlushHeader k (mtu - 1) [octet.setWidth 16] 1)
        (by rw [length_sinkFlushHeader hamount hone]; exact Nat.sub_le_sub_right hsize _)
      rw [sent_sinkFlushHeader hamount hone, append_assoc] at hsent
      exact ⟨_, hsent, hleft⟩
    · exact ⟨[], (append_nil _).symm, hsize⟩

end Sender

variable {mtu : ℕ} {signallingHeader signalId : Octet} {payload : List Octet}

theorem setWidth_setWidth_octet (x : Octet) : (x.setWidth 16).setWidth 8 = x := by
  rw [BitVec.setWidth_setWidth_of_le x (by decide), BitVec.setWidth_eq]

theorem octetsOf_cons (x : Octet) (header : List (BitVec 16)) :
    octetsOf (x.setWidth 16 :: header) = x :: 0 :: octetsOf header := by
  have hhigh : ((x.setWidth 16) >>> 8).setWidth 8 = (0 : Octet) := by
    revert x
    decide
  rw [octetsOf, flatMap_cons, setWidth_setWidth_octet, hhigh]
  rfl

/-- The signal id is not in a packet of one fragment: the high octet of the header stands in its place. -/
theorem packetsOf_single (hfits : payload.length < mtu - 1) :
    packetsOf mtu signallingHeader signalId payload =
      [fragmentHeader signallingHeader .single :: 0 :: payload] := by
  rw [packetsOf, sendPacket]
  dsimp only
  rw [if_pos hfits, sent_sinkFlushHeader (Nat.le_refl _) (by rw [octetsOf_cons]; exact Nat.le_add_left 2 _),
    octetsOf_cons, take_length]
  rfl

/-- In a packet of several fragments that octet announces their number. -/
theorem packetsOf_fragments (hmtu : 3 ≤ mtu) (hfits : mtu - 1 ≤ payload.length) :
    ∃ rest ps last, packetsOf mtu signallingHeader signalId payload =
      (fragmentHeader signallingHeader .start :: 0 :: rest) :: (ps ++ [last]) := by
  rw [packetsOf, sendPacket]
  dsimp only
  rw [if_neg (Nat.not_lt.mpr hfits)]
  have hamount : mtu - 3 ≤ (⟨[], payload⟩ : Lib.Sink Octet).claimed.length := by
    dsimp only
    omega
  have hthree : ∀ x y : BitVec 16, 3 ≤ (octetsOf [(fragmentHeader signallingHeader .start).setWidth 16, x, y]).length :=
    fun x y => by rw [octetsOf_cons]; exact Nat.le_add_left 3 _
  obtain ⟨ps, hsent, hleft⟩ := sendContinuations_spec mtu (fragmentHeader signallingHeader .continued)
    payload.length (payload.length - (mtu - 3)) (Nat.le_of_eq (length_sinkFlushHeader hamount (hthree _ _)).symm)
  rw [sent_sinkFlushHeader hleft (Nat.le_succ 1), hsent, sent_sinkFlushHeader hamount (hthree _ _), octetsOf_cons]
  exact ⟨_, ps, _, rfl⟩

/-! ### When the round trip succeeds -/

theorem fragmentHeader_single (x : Octet) :
    packetType (fragmentHeader x .single) = .single ∧ fragmentHeader x .single &&& 0xF3 = x &&& 0xF3 := by
  revert x
  decide

theorem processed_single (h : payload.length < 2 ^ 12 - 2) :
    processed none [fragmentHeader signallingHeader .single :: 0 :: payload] =
      [⟨fragmentHeader signallingHeader .single :: 0 :: payload, payload.length + 2⟩] := by
  have hlength : (payload.length + 2) % 2 ^ 12 = payload.length + 2 := Nat.mod_eq_of_lt (by omega)
  rw [processed, reassemble, getD_cons_zero, (fragmentHeader_single signallingHeader).1]
  simp only [length_cons, Nat.add_assoc, Nat.reduceAdd, hlength, Option.map_some, Option.toList_some,
    processed, append_nil]

/-- **Round trips.** A packet makes the round trip exactly if it goes in one fragment and its signal id is
zero. -/
theorem roundTrip_iff (hmtu : 48 ≤ mtu ∧ mtu ≤ 4095) (hpayload : payload.length < 4096) :
    RoundTrip mtu signallingHeader signalId payload ↔ signalId = 0 ∧ payload.length < mtu - 1 := by
  by_cases hfits : payload.length < mtu - 1
  · have hpackets : packetsOf mtu signallingHeader signalId payload = _ := packetsOf_single hfits
    have hprocessed : processed none (packetsOf mtu signallingHeader signalId payload) =
        [⟨fragmentHeader signallingHeader .single :: 0 :: payload, payload.length + 2⟩] := by
      rw [hpackets, processed_single (by omega)]
    constructor
    · rintro ⟨-, ⟨header, -, hreceived⟩, -⟩
      rw [hprocessed] at hreceived
      simp only [List.cons.injEq, Packet.mk.injEq, and_true] at hreceived
      exact ⟨hreceived.2.symm, hfits⟩
    · rintro ⟨rfl, -⟩
      refine ⟨?_, ⟨_, (fragmentHeader_single signallingHeader).2, hprocessed⟩, ?_⟩
      · intro p hp
        rw [hpackets, mem_singleton] at hp
        rw [hp]
        simp only [length_cons]
        omega
      · rw [hpackets]
        exact fun h => absurd h (Nat.lt_irrefl 1)
  · refine iff_of_false ?_ fun h => hfits h.2
    rintro ⟨-, -, hannounced⟩
    obtain ⟨rest, ps, last, hpackets⟩ : ∃ rest ps last, packetsOf mtu signallingHeader signalId payload =
        (fragmentHeader signallingHeader .start :: 0 :: rest) :: (ps ++ [last]) :=
      packetsOf_fragments (Nat.le_trans (by decide) hmtu.1) (Nat.le_of_not_lt hfits)
    rw [hpackets] at hannounced
    have hlength : 1 < ((fragmentHeader signallingHeader .start :: 0 :: rest) :: (ps ++ [last])).length := by
      simp only [length_cons, length_append, length_nil]
      omega
    -- no packet is announced
    have hzero := hannounced hlength
    rw [← hzero] at hlength
    exact absurd hlength (Nat.not_lt_zero 1)

/-- The general reject of an older peer. -/
theorem roundTrip_null : RoundTrip 48 0x20 0 [] :=
  (roundTrip_iff (by decide) (by decide)).mpr (by decide)

/-- Every signalling packet makes the round trip. -/
def AlwaysRoundTrip : Prop :=
  ∀ (mtu : ℕ) (signallingHeader signalId : Octet) (payload : List Octet), 48 ≤ mtu ∧ mtu ≤ 4095 →
    payload.length < 4096 → RoundTrip mtu signallingHeader signalId payload

/-- The command to discover is received as another command. -/
theorem not_alwaysRoundTrip : ¬AlwaysRoundTrip := by
  intro h
  obtain ⟨header, -, hreceived⟩ := (h 48 0x10 1 [] (by decide) (by decide)).received
  have hprocessed : processed none (packetsOf 48 0x10 1 []) = [⟨[0x10, 0], 2⟩] := by decide
  rw [hprocessed] at hreceived
  simp at hreceived

end Cbps.A2dp
