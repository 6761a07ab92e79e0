import Cbps.Obex.Headers
import Cbps.Obex.Profile
import Cbps.Obex.Scan

/-!
# Tag, length and value

The elements of digests, as `obexFrameTLVHeader` frames them, looked up again by `obexGetTLVHeaderValue` and, by their
position, by `obexAuthClgInd`. The lookup compares the offset of a value strictly with the length, so it does not see a
last element that is empty, `looksUp_iff`; and its offset has sixteen bits, `tlvEnds_iff`. A challenge comes back as it
was framed, `authClgInd_authReqDigest`, but the realm of a challenge may reach one octet behind it, `realmInside_iff`.
-/

namespace Cbps.Obex

open List

open Cbps.Lib (Visits)

variable {pkt : List UInt8} {len p : ℕ} {tag : UInt8}

/-! ### The lookup -/

/-- Elements framed one after another. -/
def frameTLVs (pairs : List (UInt8 × List UInt8)) : List UInt8 :=
  pairs.flatMap fun pair => obexFrameTLVHeader pair.1 pair.2

theorem frameTLVs_append (front back : List (UInt8 × List UInt8)) :
    frameTLVs (front ++ back) = frameTLVs front ++ frameTLVs back :=
  flatMap_append

theorem frameTLVs_cons (pair : UInt8 × List UInt8) (back : List (UInt8 × List UInt8)) :
    frameTLVs (pair :: back) = pair.1 :: UInt8.ofNat pair.2.length :: (pair.2 ++ frameTLVs back) :=
  flatMap_cons

theorem length_frameTLVs_cons (pair : UInt8 × List UInt8) (back : List (UInt8 × List UInt8)) :
    (frameTLVs (pair :: back)).length = pair.2.length + (frameTLVs back).length + 2 := by
  rw [frameTLVs_cons, length_cons, length_cons, length_append]

/-- **The promise** of the lookup: it finds the first element with the tag, and NULL if there is none, whatever lies
behind the elements. -/
def LooksUp (pairs : List (UInt8 × List UInt8)) (tag : UInt8) : Prop :=
  ∀ beyond, ∃ value length,
    obexGetTLVHeaderValue (frameTLVs pairs ++ beyond) (frameTLVs pairs).length tag = some (value, length) ∧
    match pairs.find? (fun pair => pair.1 = tag) with
    | none => value = none ∧ length = 0
    | some (_, data) =>
      ∃ off, value = some off ∧ length = data.length ∧ octetsAt (frameTLVs pairs ++ beyond) off length = data

theorem getTLV_eq_some_iff {result : Option ℕ × ℕ} : obexGetTLVHeaderValue pkt len tag = some result ↔
    ∃ p, TlvScanned pkt len tag p ∧ tlvTurn pkt len tag p = .inl result := by
  rw [obexGetTLVHeaderValue, tlvLoop_eq_search]
  exact Lib.search_eq_some_iff (by decide) tlvTurn_lt (Nat.le_succ _)

/-- A turn at an element that lies in front of the end. -/
theorem tlvTurn_element {pre post data : List UInt8} {t : UInt8} (hdata : data.length ≤ 255)
    (hlt : pre.length + 2 < len) (h16 : len < 65536) :
    tlvTurn (pre ++ t :: UInt8.ofNat data.length :: (data ++ post)) len tag pre.length =
      if t = tag ∧ data.length ≤ len - (pre.length + 2) then .inl (some (pre.length + 2), data.length)
      else .inr (u16 (pre.length + data.length + 2)) := by
  have hoffset : u16 ((pre.length : ℤ) + (obexTlvHdrSize : ℤ)) = pre.length + 2 :=
    u16_of_lt (n := pre.length + 2) (by omega)
  have htag : (pre ++ t :: UInt8.ofNat data.length :: (data ++ post)).getD pre.length 0 = t := by
    simp
  have hsize : ((pre ++ t :: UInt8.ofNat data.length :: (data ++ post)).getD (pre.length + 1) 0).toNat =
      data.length := by
    rw [getD_append_right _ _ _ _ (Nat.le_add_right _ _), Nat.add_sub_cancel_left]
    change (UInt8.ofNat data.length).toNat = _
    rw [UInt8.toNat_ofNat']
    omega
  rw [tlvTurn, hoffset]
  dsimp only
  rw [if_pos hlt, htag, hsize]
  rfl

theorem tlvTurn_end (h : ¬ u16 (p + obexTlvHdrSize) < len) : tlvTurn pkt len tag p = .inl (none, 0) := if_neg h

/-- The search passes elements with other tags, as long as the next value starts in front of the end. -/
theorem tlvScanned_front {front : List (UInt8 × List UInt8)} {post : List UInt8}
    (hother : ∀ pair ∈ front, pair.1 ≠ tag ∧ pair.2.length ≤ 255)
    (hinside : ∀ mid pair, mid ++ [pair] <+: front → (frameTLVs mid).length + 2 < len)
    (h16 : len < 65536) (hlen : (frameTLVs front).length < 65536) :
    TlvScanned (frameTLVs front ++ post) len tag (frameTLVs front).length := by
  induction front using List.reverseRecOn generalizing post with
  | nil => exact .start
  | append_singleton front pair ih =>
    have hsize : (frameTLVs (front ++ [pair])).length = (frameTLVs front).length + pair.2.length + 2 := by
      rw [frameTLVs_append, length_append, length_frameTLVs_cons]
      change _ + (pair.2.length + 0 + 2) = _
      omega
    obtain ⟨hne, h255⟩ := hother pair (by simp)
    have hfront : TlvScanned (frameTLVs front ++ pair.1 :: UInt8.ofNat pair.2.length :: (pair.2 ++ post)) len tag _ := ih
      (fun q hq => hother q (mem_append_left _ hq))
      (fun mid q hq => hinside mid q (hq.trans (prefix_append _ _))) (by omega)
    have hmem : frameTLVs (front ++ [pair]) ++ post =
        frameTLVs front ++ pair.1 :: UInt8.ofNat pair.2.length :: (pair.2 ++ post) := by
      rw [frameTLVs_append, frameTLVs_cons, append_assoc]
      simp [frameTLVs]
    rw [hmem, hsize]
    refine .next hfront ?_
    rw [tlvTurn_element h255 (hinside front pair prefix_rfl) h16, if_neg (fun h => hne h.1)]
    exact congrArg Sum.inr (u16_of_lt (n := (frameTLVs front).length + pair.2.length + 2) (by omega))

/-- Only the last element may have no value behind it. -/
theorem length_lt_of_last {pairs mid : List (UInt8 × List UInt8)} {pair : UInt8 × List UInt8}
    (hmid : mid ++ [pair] <+: pairs) (hlast : ¬ (pairs = mid ++ [pair] ∧ pair.2 = [])) :
    (frameTLVs mid).length + 2 < (frameTLVs pairs).length := by
  obtain ⟨back, rfl⟩ := hmid
  rw [append_assoc, singleton_append, frameTLVs_append, length_append, length_frameTLVs_cons]
  rcases back with - | ⟨next, back⟩
  · have hvalue : 0 < pair.2.length := length_pos_iff.mpr fun h => hlast ⟨by rw [append_nil], h⟩
    omega
  · rw [length_frameTLVs_cons]
    omega

/-- The tag is that of the last element only, which is empty; or it is that of none, while all sixteen bits of the offset
are used up and the last element is not empty. -/
def LookupFails (pairs : List (UInt8 × List UInt8)) (tag : UInt8) : Prop :=
  (∃ front, pairs = front ++ [(tag, [])] ∧ ∀ pair ∈ front, pair.1 ≠ tag) ∨
    (∀ pair ∈ pairs, pair.1 ≠ tag) ∧ 65534 ≤ (frameTLVs pairs).length ∧
      ∀ front pair, pairs = front ++ [pair] → pair.2 ≠ []

section LooksUp

variable {pairs : List (UInt8 × List UInt8)} (h255 : ∀ pair ∈ pairs, pair.2.length ≤ 255)
  (h16 : (frameTLVs pairs).length < 65536)

include h255 h16

theorem tlvScanned_pairs {front back : List (UInt8 × List UInt8)} (beyond : List UInt8) (hpairs : pairs = front ++ back)
    (hother : ∀ pair ∈ front, pair.1 ≠ tag)
    (hlast : ∀ mid pair, mid ++ [pair] <+: front → ¬ (pairs = mid ++ [pair] ∧ pair.2 = [])) :
    TlvScanned (frameTLVs pairs ++ beyond) (frameTLVs pairs).length tag (frameTLVs front).length := by
  have hlen : (frameTLVs front).length ≤ (frameTLVs pairs).length := by
    rw [hpairs, frameTLVs_append, length_append]
    exact Nat.le_add_right _ _
  have hmem : frameTLVs pairs ++ beyond = frameTLVs front ++ (frameTLVs back ++ beyond) := by
    rw [hpairs, frameTLVs_append, append_assoc]
  rw [hmem]
  refine tlvScanned_front (fun pair hpair => ⟨hother pair hpair, h255 pair ?_⟩) (fun mid pair hmid => ?_) h16 (by omega)
  · rw [hpairs]
    exact mem_append_left _ hpair
  · exact length_lt_of_last (hmid.trans (hpairs ▸ prefix_append _ _)) (hlast mid pair hmid)

/-- In front of an element, only shorter lists end. -/
theorem tlvScanned_before {front back : List (UInt8 × List UInt8)} {pair : UInt8 × List UInt8} (beyond : List UInt8)
    (hpairs : pairs = front ++ pair :: back) (hother : ∀ pair ∈ front, pair.1 ≠ tag) :
    TlvScanned (frameTLVs pairs ++ beyond) (frameTLVs pairs).length tag (frameTLVs front).length := by
  refine tlvScanned_pairs h255 h16 beyond hpairs hother ?_
  rintro mid q hmid ⟨heq, -⟩
  have hlen := hmid.length_le
  rw [← heq, hpairs, length_append, length_cons] at hlen
  omega

/-- The search does not see an empty element at the end. -/
theorem getTLV_emptyLast {front : List (UInt8 × List UInt8)} {pair : UInt8 × List UInt8} (beyond : List UInt8)
    (hpairs : pairs = front ++ [pair]) (hempty : pair.2 = []) (hother : ∀ pair ∈ front, pair.1 ≠ tag) :
    obexGetTLVHeaderValue (frameTLVs pairs ++ beyond) (frameTLVs pairs).length tag = some (none, 0) := by
  refine getTLV_eq_some_iff.mpr ⟨_, tlvScanned_before h255 h16 beyond hpairs hother, tlvTurn_end ?_⟩
  have hlen : (frameTLVs pairs).length = (frameTLVs front).length + 2 := by
    rw [hpairs, frameTLVs_append, length_append, length_frameTLVs_cons, hempty]
    rfl
  have hoffset : u16 (((frameTLVs front).length : ℤ) + (obexTlvHdrSize : ℤ)) = (frameTLVs front).length + 2 :=
    u16_of_lt (n := (frameTLVs front).length + 2) (by omega)
  omega

/-- The lookup keeps its promise but for the one kind of element, and for the longest lists. -/
theorem looksUp_iff (tag : UInt8) : LooksUp pairs tag ↔ ¬ LookupFails pairs tag := by
  have hoffset : (frameTLVs pairs).length < 65534 →
      u16 (((frameTLVs pairs).length : ℤ) + (obexTlvHdrSize : ℤ)) = (frameTLVs pairs).length + 2 :=
    fun h => u16_of_lt (n := (frameTLVs pairs).length + 2) (by omega)
  constructor
  · rintro hlooks (⟨front, hpairs, hother⟩ | ⟨hother, hlen, hlast⟩)
    · obtain ⟨value, length, hvalue, hfound⟩ := hlooks []
      rw [getTLV_emptyLast h255 h16 [] hpairs rfl hother] at hvalue
      obtain ⟨rfl, rfl⟩ := Prod.mk.inj (Option.some.inj hvalue)
      have hfind : pairs.find? (fun pair => pair.1 = tag) = some (tag, []) := by
        refine List.find?_eq_some_iff_append.mpr ⟨by simp, front, [], hpairs, fun pair hpair => ?_⟩
        simpa using hother pair hpair
      rw [hfind] at hfound
      obtain ⟨off, hnone, -⟩ := hfound
      exact absurd hnone (by simp)
    · -- the search goes on behind the last element, where the tag is
      obtain ⟨value, length, hvalue, hfound⟩ := hlooks [tag, 0]
      have hfind : pairs.find? (fun pair => pair.1 = tag) = none := by
        refine List.find?_eq_none.mpr fun pair hpair => ?_
        simpa using hother pair hpair
      rw [hfind] at hfound
      have hscanned := tlvScanned_pairs h255 h16 [tag, 0] (append_nil pairs).symm hother
        fun mid pair hmid h => hlast mid pair h.1 h.2
      have hturn : tlvTurn (frameTLVs pairs ++ [tag, 0]) (frameTLVs pairs).length tag (frameTLVs pairs).length =
          .inl (some ((frameTLVs pairs).length + 2), 0) := by
        have hwrap : u16 (((frameTLVs pairs).length : ℤ) + (obexTlvHdrSize : ℤ)) < (frameTLVs pairs).length := by
          rw [u16, obexTlvHdrSize]
          omega
        rw [tlvTurn]
        dsimp only
        rw [if_pos hwrap]
        simp
      rw [getTLV_eq_some_iff.mpr ⟨_, hscanned, hturn⟩] at hvalue
      obtain ⟨rfl, -⟩ := Prod.mk.inj (Option.some.inj hvalue)
      exact absurd hfound.1 (by simp)
  · intro hfails beyond
    rcases hfind : pairs.find? (fun pair => pair.1 = tag) with - | ⟨t, data⟩
    · have hother : ∀ pair ∈ pairs, pair.1 ≠ tag := fun pair hpair => by
        simpa using List.find?_eq_none.mp hfind pair hpair
      simp only [hfind]
      refine ⟨none, 0, ?_, rfl, rfl⟩
      by_cases hlast : ∃ front pair, pairs = front ++ [pair] ∧ pair.2 = []
      · obtain ⟨front, pair, hpairs, hempty⟩ := hlast
        refine getTLV_emptyLast h255 h16 beyond hpairs hempty fun q hq => hother q ?_
        rw [hpairs]
        exact mem_append_left _ hq
      · have hshort : (frameTLVs pairs).length < 65534 := by
          by_contra hlong
          refine hfails (.inr ⟨hother, Nat.le_of_not_lt hlong, fun front pair hpairs hempty => ?_⟩)
          exact hlast ⟨front, pair, hpairs, hempty⟩
        have hscanned := tlvScanned_pairs h255 h16 beyond (append_nil pairs).symm hother
          fun mid pair hmid h => hlast ⟨mid, pair, h⟩
        exact getTLV_eq_some_iff.mpr ⟨_, hscanned, tlvTurn_end (by have := hoffset hshort; omega)⟩
    · obtain ⟨htag, front, back, hpairs, hfront⟩ := List.find?_eq_some_iff_append.mp hfind
      have hother : ∀ pair ∈ front, pair.1 ≠ tag := fun pair hpair => by simpa using hfront pair hpair
      obtain rfl : t = tag := by simpa using htag
      have hdata : data.length ≤ 255 := h255 (t, data) (by rw [hpairs]; simp)
      have hlt : (frameTLVs front).length + 2 < (frameTLVs pairs).length := by
        refine @length_lt_of_last _ _ (t, data) ⟨back, by rw [hpairs]; simp⟩ ?_
        rintro ⟨hend, rfl⟩
        exact hfails (.inl ⟨front, hend, hother⟩)
      have hmem : frameTLVs pairs ++ beyond =
          frameTLVs front ++ t :: UInt8.ofNat data.length :: (data ++ (frameTLVs back ++ beyond)) := by
        rw [hpairs, frameTLVs_append, frameTLVs_cons]
        simp
      have hscanned := tlvScanned_before h255 h16 beyond hpairs hother
      have hlen : (frameTLVs pairs).length = (frameTLVs front).length + (data.length + (frameTLVs back).length + 2) := by
        rw [hpairs, frameTLVs_append, length_append, length_frameTLVs_cons]
      simp only [hfind]
      refine ⟨some ((frameTLVs front).length + 2), data.length, getTLV_eq_some_iff.mpr ⟨_, hscanned, ?_⟩, _, rfl, rfl, ?_⟩
      · rw [hmem, tlvTurn_element hdata hlt h16, if_pos ⟨rfl, by omega⟩]
      · have hvalue := octetsAt_append (frameTLVs front ++ [t, UInt8.ofNat data.length]) data
          (frameTLVs back ++ beyond)
        rw [length_append] at hvalue
        rw [hmem]
        simpa using hvalue

end LooksUp

/-! ### The lookup ends -/

/-- A turn that passes an element moves on by its size. -/
theorem tlvTurn_inr {q : ℕ} (h : tlvTurn pkt len tag p = .inr q) : u16 (p + obexTlvHdrSize) < len ∧
    q = u16 (p + (pkt.getD (p + 1) 0).toNat + obexTlvHdrSize) := by
  rw [tlvTurn] at h
  dsimp only at h
  split at h
  · next hlt =>
    split at h
    · exact absurd h (by simp)
    · exact ⟨hlt, (Sum.inr.inj h).symm⟩
  · exact absurd h (by simp)

/-- Elements of 257 octets, with one of 256 among them, that lead to the last two offsets, and back to the first. -/
def circle : List UInt8 := ((List.replicate 65536 255).set 65022 254).set 65535 0

theorem circle_getD (p : ℕ) : circle.getD p 0 =
    if p = 65535 then 0 else if p = 65022 then 254 else if p < 65536 then 255 else 0 := by
  rw [circle, getD_eq_getElem?_getD]
  simp only [List.getElem?_set, List.getElem?_replicate, length_set, length_replicate]
  split
  · next h =>
    subst h
    rfl
  · next h =>
    rw [if_neg (Ne.symm h)]
    split
    · next h =>
      subst h
      rfl
    · next h =>
      rw [if_neg (Ne.symm h)]
      split <;> rfl

theorem circle_turn (h : u16 (p + obexTlvHdrSize) < len) :
    tlvTurn circle len 1 p = .inr (u16 (p + (circle.getD (p + 1) 0).toNat + obexTlvHdrSize)) := by
  have hother : circle.getD p 0 ≠ 1 := by
    rw [circle_getD]
    split
    · decide
    · split
      · decide
      · split <;> decide
  rw [tlvTurn]
  dsimp only
  rw [if_pos h, if_neg fun h => hother h.1]

theorem circle_none (hlen : 65280 ≤ len) : obexGetTLVHeaderValue circle len 1 = none := by
  have hturn : ∀ p q size : ℕ, (circle.getD (p + 1) 0).toNat = size → p + 2 < 65280 → p + size + 2 = q → q < 65536 →
      tlvTurn circle len 1 p = .inr q := by
    intro p q size hsize hp hq h16
    have hoffset : u16 ((p : ℤ) + (obexTlvHdrSize : ℤ)) = p + 2 := u16_of_lt (n := p + 2) (by omega)
    rw [circle_turn (by omega), hsize]
    exact congrArg Sum.inr ((u16_of_lt (n := p + size + 2) (by omega)).trans hq)
  have hsteps : ∀ k ≤ 253, TlvScanned circle len 1 (257 * k) := by
    intro k hk
    induction k with
    | zero => exact .start
    | succ k ih =>
      refine .next (ih (by omega)) (hturn _ _ 255 ?_ (by omega) (by omega) (by omega))
      rw [circle_getD, if_neg (by omega), if_neg (by omega), if_pos (by omega)]
      rfl
  have hnear : TlvScanned circle len 1 65277 :=
    .next (hsteps 253 le_rfl) (hturn _ _ 254 (by rw [circle_getD]; rfl) (by decide) rfl (by decide))
  have hlast : TlvScanned circle len 1 65534 :=
    .next hnear (hturn _ _ 255 (by rw [circle_getD]; rfl) (by decide) rfl (by decide))
  have hback : tlvTurn circle len 1 65534 = .inr 0 := by
    have hwrap : u16 (((65534 : ℕ) : ℤ) + (obexTlvHdrSize : ℤ)) = 0 := by decide
    rw [circle_turn (by omega), circle_getD]
    rfl
  obtain ⟨q, hq, hvisits⟩ := hlast.head.resolve_left (by decide)
  rw [obexGetTLVHeaderValue, tlvLoop_eq_search]
  exact Lib.search_eq_none_of_visits (by decide) tlvTurn_lt (Nat.le_succ _) hq (.next hvisits hback)

/-- The lookup ends in every memory exactly below the length 65280. -/
theorem tlvEnds_iff (len : ℕ) : (∀ pkt tag, obexGetTLVHeaderValue pkt len tag ≠ none) ↔ len < 65280 := by
  constructor
  · intro h
    by_contra hlen
    exact h circle 1 (circle_none (Nat.le_of_not_lt hlen))
  · intro hlen pkt tag
    have hnext : ∀ p q, p < 65534 → tlvTurn pkt len tag p = .inr q → p < q ∧ q < 65534 := by
      intro p q hp hq
      obtain ⟨hlt, rfl⟩ := tlvTurn_inr hq
      have hsize := (pkt.getD (p + 1) 0).toNat_lt
      rw [u16, obexTlvHdrSize] at hlt ⊢
      omega
    have hsmall : ∀ p, TlvScanned pkt len tag p → p < 65534 :=
      fun p hp => hp.keeps (by decide) fun p q hp hq => (hnext p q hp hq).2
    rw [obexGetTLVHeaderValue, tlvLoop_eq_search]
    exact Lib.search_ne_none (by decide) tlvTurn_lt (Nat.le_succ _) fun p q hp hq => (hnext p q (hsmall p hp) hq).1

/-! ### Challenges -/

/-- The challenge has options, in front of its realm. -/
def hasOptions (pkt : List UInt8) (pktLen : ℕ) : Bool :=
  pktLen > obexTlvHdrSize + obexSizeDigest + obexTlvHdrSize &&
    pkt.getD (obexTlvHdrSize + obexSizeDigest) 0 == obexReqOptionsTag

def realmOffset (pkt : List UInt8) (pktLen : ℕ) : ℕ :=
  if hasOptions pkt pktLen then obexTlvHdrSize + obexSizeDigest + obexTlvHdrSize + 1
  else obexTlvHdrSize + obexSizeDigest

/-- Where the realm lies that `obexAuthClgInd` reports, and its length. -/
def reportedRealm (pkt : List UInt8) (pktLen : ℕ) : ℕ × ℕ :=
  let offset := realmOffset pkt pktLen
  let size := (pkt.getD (offset + 1) 0).toNat
  if pktLen > offset + obexTlvHdrSize && pkt.getD offset 0 == obexReqRealmTag && decide (size ≤ pktLen - (offset + 1))
  then (offset + obexTlvHdrSize, size) else (0, 0)

theorem obexAuthClgInd_eq (s : Session) (pkt : List UInt8) (pktLen : ℕ) :
    obexAuthClgInd s pkt pktLen = s.sendApp (.authClgInd (octetsAt pkt obexTlvHdrSize obexSizeDigest)
      (if hasOptions pkt pktLen then pkt.getD (obexTlvHdrSize + obexSizeDigest + obexTlvHdrSize) 0 else 0)
      (octetsAt pkt (reportedRealm pkt pktLen).1 (reportedRealm pkt pktLen).2)) := by
  refine congrArg s.sendApp (congrArg (AppMessage.authClgInd _ _) ?_)
  rw [reportedRealm]
  change (if (decide (pktLen > realmOffset pkt pktLen + obexTlvHdrSize) &&
      pkt.getD (realmOffset pkt pktLen) 0 == obexReqRealmTag && decide ((pkt.getD (realmOffset pkt pktLen + 1) 0).toNat ≤
        pktLen - (realmOffset pkt pktLen + 1))) = true
    then octetsAt pkt (realmOffset pkt pktLen + 2) (pkt.getD (realmOffset pkt pktLen + 1) 0).toNat else []) = _
  split <;> rfl

/-- The realm that is reported lies in the challenge. -/
def RealmInside (pkt : List UInt8) (pktLen : ℕ) : Prop := (reportedRealm pkt pktLen).1 + (reportedRealm pkt pktLen).2 ≤ pktLen

/-- A realm whose length counts its own length octet. -/
def RealmOverlong (pkt : List UInt8) (pktLen : ℕ) : Prop :=
  realmOffset pkt pktLen + obexTlvHdrSize < pktLen ∧ pkt.getD (realmOffset pkt pktLen) 0 = obexReqRealmTag ∧
    (pkt.getD (realmOffset pkt pktLen + 1) 0).toNat = pktLen - (realmOffset pkt pktLen + 1)

/-- A realm is compared with the room from its length octet on. -/
theorem realmInside_iff (pkt : List UInt8) (pktLen : ℕ) : RealmInside pkt pktLen ↔ ¬ RealmOverlong pkt pktLen := by
  rw [RealmInside, RealmOverlong, reportedRealm]
  generalize realmOffset pkt pktLen = offset
  simp only [Bool.and_eq_true, decide_eq_true_eq, beq_iff_eq, gt_iff_lt]
  generalize (pkt.getD (offset + 1) 0).toNat = size
  rw [obexTlvHdrSize]
  split
  · next h =>
    obtain ⟨⟨hlt, htag⟩, hsize⟩ := h
    constructor
    · rintro hinside ⟨-, -, heq⟩
      omega
    · intro hoverlong
      have hne : size ≠ pktLen - (offset + 1) := fun heq => hoverlong ⟨hlt, htag, heq⟩
      omega
  · next h =>
    refine iff_of_true (Nat.zero_le _) ?_
    rintro ⟨hlt, htag, heq⟩
    exact h ⟨⟨hlt, htag⟩, Nat.le_of_eq heq⟩

/-- A realm that ends the challenge is reported. -/
theorem octetsAt_realm {pre realm : List UInt8} (beyond : List UInt8) (hrealm : realm.length ≤ 255)
    (hpkt : pkt = pre ++ (obexFrameTLVHeader obexReqRealmTag realm ++ beyond))
    (hoffset : realmOffset pkt (pre.length + realm.length + 2) = pre.length) :
    octetsAt pkt (reportedRealm pkt (pre.length + realm.length + 2)).1
      (reportedRealm pkt (pre.length + realm.length + 2)).2 = realm := by
  have htag : pkt.getD pre.length 0 = obexReqRealmTag := by
    rw [hpkt]
    exact getD_append_add pre _ 0
  have hsize : (pkt.getD (pre.length + 1) 0).toNat = realm.length := by
    rw [hpkt, getD_append_add]
    change (UInt8.ofNat realm.length).toNat = _
    rw [UInt8.toNat_ofNat']
    omega
  rw [reportedRealm, hoffset, htag, hsize]
  rcases realm with - | ⟨r, realm⟩
  · -- an empty realm is not seen, and none is reported
    rw [if_neg (by simp [obexTlvHdrSize])]
    rfl
  · rw [if_pos (by simp [obexTlvHdrSize]; omega)]
    have hvalue := octetsAt_append (pre ++ [obexReqRealmTag, UInt8.ofNat (r :: realm).length]) (r :: realm) beyond
    rw [length_append] at hvalue
    rw [hpkt, obexFrameTLVHeader, obexTlvHdrSize]
    simpa using hvalue

/-- No realm is reported where the challenge ends. -/
theorem octetsAt_noRealm (h : len ≤ realmOffset pkt len) :
    octetsAt pkt (reportedRealm pkt len).1 (reportedRealm pkt len).2 = [] := by
  have hend : ¬ len > realmOffset pkt len + obexTlvHdrSize := by omega
  rw [reportedRealm, if_neg (by simp [hend])]
  rfl

section Challenge

variable {nonce : List UInt8} {options : UInt8}

/-- The nonce and the options of a challenge. -/
def challengeFront (nonce : List UInt8) (options : UInt8) : List UInt8 :=
  obexFrameTLVHeader obexReqNonceTag nonce ++
    if options ≠ 0 then obexFrameTLVHeader obexReqOptionsTag [options] else []

theorem authReqDigest_eq (nonce : List UInt8) (options : UInt8) (realm : Option (List UInt8)) :
    authReqDigest nonce options realm = challengeFront (octetsAt nonce 0 obexSizeDigest) options ++
      realm.elim [] fun realm => obexFrameTLVHeader obexReqRealmTag (realm.take obexMaxValSize) := by
  rw [challengeFront]
  by_cases hopt : options = 0
  · rcases realm with - | realm <;> simp [authReqDigest, hopt]
  · rcases realm with - | realm <;> simp [authReqDigest, hopt]

theorem length_challengeFront (h : nonce.length = 16) :
    (challengeFront nonce options).length = if options ≠ 0 then 21 else 18 := by
  rw [challengeFront]
  split <;> simp [obexFrameTLVHeader, h]

theorem octetsAt_challengeFront (h : nonce.length = 16) (rest : List UInt8) :
    octetsAt (challengeFront nonce options ++ rest) obexTlvHdrSize obexSizeDigest = nonce := by
  have hvalue := octetsAt_append [obexReqNonceTag, UInt8.ofNat nonce.length] nonce
    ((if options ≠ 0 then obexFrameTLVHeader obexReqOptionsTag [options] else []) ++ rest)
  rw [h] at hvalue
  rw [challengeFront, obexFrameTLVHeader, append_assoc]
  exact hvalue

/-- The octets behind the nonce. -/
theorem getD_challengeFront (h : nonce.length = 16) (rest : List UInt8) (i : ℕ) :
    (challengeFront nonce options ++ rest).getD (18 + i) 0 =
      ((if options ≠ 0 then obexFrameTLVHeader obexReqOptionsTag [options] else []) ++ rest).getD i 0 := by
  have hhead : (obexFrameTLVHeader obexReqNonceTag nonce).length = 18 := by simp [obexFrameTLVHeader, h]
  rw [challengeFront, append_assoc, ← hhead, getD_append_add]

/-- What follows the nonce tells whether there are options. -/
theorem hasOptions_challengeFront (h : nonce.length = 16) {rest : List UInt8} {n : ℕ}
    (hrest : 2 < n → rest.getD 0 0 ≠ obexReqOptionsTag) :
    hasOptions (challengeFront nonce options ++ rest) ((challengeFront nonce options).length + n) =
      decide (options ≠ 0) := by
  have hgetD : (challengeFront nonce options ++ rest).getD (obexTlvHdrSize + obexSizeDigest) 0 = _ :=
    getD_challengeFront h rest 0
  rw [hasOptions, length_challengeFront h, hgetD]
  dsimp only [obexTlvHdrSize, obexSizeDigest]
  by_cases hopt : options = 0
  · rw [if_neg (not_not_intro hopt), if_neg (not_not_intro hopt), nil_append]
    by_cases hn : 2 < n
    · rw [beq_eq_false_iff_ne.mpr (hrest hn)]
      simp [hopt]
    · have hend : ¬ 18 + n > 20 := by omega
      simp [hopt, hend]
  · have hlong : 21 + n > 20 := by omega
    rw [if_pos hopt, if_pos hopt]
    simp [hopt, hlong, obexFrameTLVHeader]

/-- A challenge is delivered as it was framed, with the realm clipped. -/
theorem authClgInd_authReqDigest (s : Session) (nonce : List UInt8) (options : UInt8) (realm : Option (List UInt8))
    (beyond : List UInt8) :
    obexAuthClgInd s (authReqDigest nonce options realm ++ beyond) (authReqDigest nonce options realm).length =
      s.sendApp (.authClgInd (octetsAt nonce 0 obexSizeDigest) options ((realm.getD []).take obexMaxValSize)) := by
  have hnonce : (octetsAt nonce 0 obexSizeDigest).length = 16 := by simp [octetsAt, obexSizeDigest]
  rw [authReqDigest_eq]
  generalize octetsAt nonce 0 obexSizeDigest = nonce at hnonce ⊢
  have hoptions : ∀ rest, (if decide (options ≠ 0) then
      (challengeFront nonce options ++ rest).getD (obexTlvHdrSize + obexSizeDigest + obexTlvHdrSize) 0 else 0) =
        options := by
    intro rest
    by_cases hopt : options = 0
    · simp [hopt]
    · have hgetD := @getD_challengeFront _ options hnonce rest 2
      rw [if_pos hopt] at hgetD
      rw [if_pos (decide_eq_true hopt)]
      exact hgetD
  have hoffset : ∀ rest n, (2 < n → rest.getD 0 0 ≠ obexReqOptionsTag) →
      realmOffset (challengeFront nonce options ++ rest) ((challengeFront nonce options).length + n) =
        (challengeFront nonce options).length := by
    intro rest n hrest
    rw [realmOffset, hasOptions_challengeFront hnonce hrest, length_challengeFront hnonce]
    by_cases hopt : options = 0 <;> simp [hopt, obexTlvHdrSize, obexSizeDigest]
  rcases realm with - | realm
  · have hnone : 2 < 0 → beyond.getD 0 0 ≠ obexReqOptionsTag := by omega
    have hat := hoffset beyond 0 hnone
    have hhas := @hasOptions_challengeFront _ options hnonce _ _ hnone
    rw [Nat.add_zero] at hat hhas
    simp only [Option.elim_none, append_nil]
    rw [obexAuthClgInd_eq, octetsAt_challengeFront hnonce, hhas, hoptions, octetsAt_noRealm (Nat.le_of_eq hat.symm)]
    rfl
  · simp only [Option.elim_some]
    generalize htake : realm.take obexMaxValSize = clipped
    have hclipped : clipped.length ≤ 255 := by
      rw [← htake, length_take, obexMaxValSize]
      omega
    have htag : 2 < clipped.length + 2 →
        (obexFrameTLVHeader obexReqRealmTag clipped ++ beyond).getD 0 0 ≠ obexReqOptionsTag :=
      fun _ => (by decide : obexReqRealmTag ≠ obexReqOptionsTag)
    have hlen : (challengeFront nonce options ++ obexFrameTLVHeader obexReqRealmTag clipped).length =
        (challengeFront nonce options).length + (clipped.length + 2) := length_append
    rw [append_assoc, hlen, obexAuthClgInd_eq, octetsAt_challengeFront hnonce,
      hasOptions_challengeFront hnonce htag, hoptions, ← Nat.add_assoc, octetsAt_realm beyond hclipped rfl (hoffset _ _ htag)]
    exact congrArg (fun realm => s.sendApp (.authClgInd nonce options realm)) htake.symm

end Challenge

end Cbps.Obex
