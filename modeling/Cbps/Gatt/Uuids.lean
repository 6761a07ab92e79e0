import Cbps.SdpParse.Uuids

/-!
# UUIDs of ATT and of SDP

`gatt_get_att_uuid` and `gatt_get_sdp_uuid` read a UUID from a PDU of ATT and from a service record, and
`gatt_find_by_type_value_req` and `search_sdp_service` write one. In between a UUID is four words, the first one the most
significant. ATT has the least significant octet first, SDP the most significant one.

`RegionReadUnsigned` takes a whole region for one number, so each word of a UUID of 16 octets is read as the last one, and
of the short forms only one decoder asks whether 16 bits are enough: `codecsAgree_iff` says for which UUIDs the four agree.
-/

namespace Cbps.Gatt

open List Option

open Service SdpParse

/-! ### The code -/

/-- `gatt_uuid_type_t`. -/
inductive GattUuidType
  | none
  | uuid16
  | uuid32
  | uuid128
  deriving DecidableEq, Repr

/-- `att_base_uuid`. -/
def attBaseUuid : List ℕ := [0x00001000, 0x80000080, 0x5f9b34fb]

/-- `value[i]`. -/
def valueAt (value : List UInt8) (i : ℕ) : Option ℕ := value[i]?.map UInt8.toNat

/-- `uuid[i] = word`. -/
def storeWord (uuid : List ℕ) (i word : ℕ) : Option (List ℕ) := if i < uuid.length then some (uuid.set i word) else none

/-- The word at `value`, as ATT writes it. -/
def attWord (value : List UInt8) : Option ℕ := do
  let v0 ← valueAt value 0
  let v1 ← valueAt value 1
  let v2 ← valueAt value 2
  let v3 ← valueAt value 3
  return v0 ||| v1 <<< 8 ||| v2 <<< 16 ||| v3 <<< 24

/-- The type of a UUID of four words: is it one of the short UUIDs, written out over the base UUID? -/
def uuidTypeOf (uuid : List ℕ) : GattUuidType :=
  if uuid.drop 1 = attBaseUuid then if uuid.headD 0 &&& 0xffff0000 = 0 then .uuid16 else .uuid32 else .uuid128

/-- `gatt_get_att_uuid`, into an array of four words. -/
def gattGetAttUuid (value : List UInt8) (uuid : List ℕ) : Option (List ℕ × GattUuidType) :=
  match value.length with
  | 2 => do
    let v0 ← valueAt value 0
    let v1 ← valueAt value 1
    return ((v1 <<< 8 ||| v0) :: attBaseUuid, .uuid16)
  | 4 => do
    let v0 ← valueAt value 0
    let v1 ← valueAt value 1
    let v2 ← valueAt value 2
    let v3 ← valueAt value 3
    return ((v1 <<< 8 ||| v0 ||| (v3 <<< 24 ||| v2 <<< 16)) :: attBaseUuid, .uuid32)
  | 16 => do
    let uuid ← (List.range 4).foldlM (fun uuid i => do storeWord uuid (3 - i) (← attWord (value.drop (4 * i)))) uuid
    return (uuid, uuidTypeOf uuid)
  | _ => some (List.replicate 4 0, .none)

/-- The loop of `gatt_get_sdp_uuid`, with a bound for its turns. -/
def sdpWords (mem : ℕ → UInt8) : ℕ → ℕ → Region → List ℕ → Option (List ℕ)
  | 0, _, _, _ => none
  | n + 1, i, val, uuid =>
    if val.begin < val.end then do
      sdpWords mem n (i + 1) (val.skip 4) (← storeWord uuid i (regionReadUnsigned mem val))
    else some uuid

/-- `gatt_get_sdp_uuid`, into an array of four words. -/
def gattGetSdpUuid (mem : ℕ → UInt8) (val : Region) (uuid : List ℕ) : Option (List ℕ × GattUuidType) := do
  let uuid ← sdpWords mem (val.end - val.begin + 1) 0 val (uuid.take 1 ++ attBaseUuid)
  return (uuid, uuidTypeOf uuid)

/-- The variables of the loop of `gatt_find_by_type_value_req`: its copy of the words, the pointer into it, and the octets
that have been written. -/
structure Filter where
  u : List ℕ
  p : ℤ
  value : List UInt8

/-- A turn of the loop of `gatt_find_by_type_value_req`. The pointer may leave the words, but nothing is read there. -/
def filterTurn (f : Filter) (i : ℕ) : Option Filter :=
  if f.p < 0 then none
  else do
    let word ← f.u[f.p.toNat]?
    let value := f.value ++ [UInt8.ofNat (word &&& 0xff)]
    return if i &&& 3 = 3 then ⟨f.u, f.p - 1, value⟩ else ⟨f.u.set f.p.toNat (word >>> 8), f.p, value⟩

/-- `gatt_find_by_type_value_req`: the value of the primitive. -/
def gattFindByTypeValueReq (uuidType : GattUuidType) (uuid : List ℕ) : Option (List UInt8) :=
  let (sizeValue, p) := match uuidType with
    | .uuid16 => (2, 0)
    | .uuid32 => (4, 0)
    | _ => (16, 3)
  ((List.range sizeValue).foldlM filterTurn ⟨uuid, p, []⟩).map Filter.value

/-- `sdp_search`. -/
def sdpSearch : List UInt8 := [0x35, 0x03, 0x19, 0x00, 0x07]

/-- The octets of a word in `search_sdp_service`. -/
def sdpOctets (word : ℕ) : List UInt8 :=
  [UInt8.ofNat (word >>> 24 &&& 0xff), UInt8.ofNat (word >>> 16 &&& 0xff), UInt8.ofNat (word >>> 8 &&& 0xff),
    UInt8.ofNat (word &&& 0xff)]

/-- The descriptor of a UUID, and how many octets it is in front of. -/
def sdpType : GattUuidType → UInt8 × ℕ
  | .uuid16 => (0x19, 2)
  | .uuid32 => (0x1a, 4)
  | _ => (0x1c, 16)

/-- `search_sdp_service`: the search pattern. There is room for `sizeof(sdp_search) + 1 + 16` octets. -/
def searchSdpService (uuidType : GattUuidType) (uuid : List ℕ) : Option (List UInt8) :=
  let uuid := if uuidType = .uuid16 then uuid.modify 0 fun word => word <<< 16 % 4294967296 else uuid
  let len := 1 + (sdpType uuidType).2
  let search := sdpSearch.modify 1 (· + UInt8.ofNat len) ++ (sdpType uuidType).1 :: uuid.flatMap sdpOctets
  if search.length ≤ sdpSearch.length + 1 + 16 then some (search.take (sdpSearch.length + len)) else none

/-! ### UUIDs -/

/-- A UUID in one of its forms. -/
inductive Uuid
  | uuid16 (u : BitVec 16)
  | uuid32 (u : BitVec 32)
  | uuid128 (w0 w1 w2 w3 : BitVec 32)
  deriving DecidableEq, Repr

namespace Uuid

/-- The four words. -/
def words : Uuid → List ℕ
  | uuid16 u => u.toNat :: attBaseUuid
  | uuid32 u => u.toNat :: attBaseUuid
  | uuid128 w0 w1 w2 w3 => [w0.toNat, w1.toNat, w2.toNat, w3.toNat]

/-- The octets, the most significant first. -/
def octets : Uuid → List UInt8
  | uuid16 u => numberOctets 2 u.toNat
  | uuid32 u => numberOctets 4 u.toNat
  | uuid128 w0 w1 w2 w3 => numberOctets 4 w0.toNat ++ numberOctets 4 w1.toNat ++ numberOctets 4 w2.toNat ++ numberOctets 4 w3.toNat

/-- The shortest type. -/
def type (u : Uuid) : GattUuidType :=
  if u.words.drop 1 = attBaseUuid then if u.words.headD 0 < 65536 then .uuid16 else .uuid32 else .uuid128

/-- The octets of the shortest form. -/
def shortest (u : Uuid) : List UInt8 :=
  match u.type with
  | .uuid16 => numberOctets 2 (u.words.headD 0)
  | .uuid32 => numberOctets 4 (u.words.headD 0)
  | _ => u.words.flatMap (numberOctets 4)

/-- The search pattern for the protocol ATT and the UUID. -/
def pattern (u : Uuid) : List UInt8 :=
  [0x35, 3 + UInt8.ofNat (1 + u.shortest.length), 0x19, 0x00, 0x07, (sdpType u.type).1] ++ u.shortest

/-- **The promise**: both decoders find the four words and the shortest type, and both encoders write the shortest form. -/
structure Agrees (u : Uuid) : Prop where
  att : ∀ uuid : List ℕ, uuid.length = 4 → gattGetAttUuid u.octets.reverse uuid = some (u.words, u.type)
  sdp : ∀ mem val, ∀ uuid : List ℕ, uuid.length = 4 → val.octets mem = u.octets →
    gattGetSdpUuid mem val uuid = some (u.words, u.type)
  findByTypeValue : gattFindByTypeValueReq u.type u.words = some u.shortest.reverse
  search : searchSdpService u.type u.words = some u.pattern

/-- Neither the word that is read four times nor the type that is taken from the width makes a difference. -/
def ReadRight : Uuid → Prop
  | uuid16 _ => True
  | uuid32 u => 65536 ≤ u.toNat
  | uuid128 w0 w1 w2 w3 => w0 = w3 ∧ w1 = w3 ∧ w2 = w3

end Uuid

/-! ### Octets of a word -/

theorem numberOctets_two (n : ℕ) : numberOctets 2 n = [UInt8.ofNat (n / 256), UInt8.ofNat n] := rfl

theorem numberOctets_four (n : ℕ) : numberOctets 4 n =
    [UInt8.ofNat (n / 256 / 256 / 256), UInt8.ofNat (n / 256 / 256), UInt8.ofNat (n / 256), UInt8.ofNat n] := rfl

theorem toNat_octet (n : ℕ) : (UInt8.ofNat n).toNat = n % 256 := rfl

theorem octet_mask (n : ℕ) : UInt8.ofNat (n &&& 0xff) = UInt8.ofNat n := by
  refine UInt8.toNat_inj.mp ?_
  rw [toNat_octet, toNat_octet, show (0xff : ℕ) = 2 ^ 8 - 1 from rfl, Nat.and_two_pow_sub_one_eq_mod]
  omega

theorem or_two {v0 v1 : ℕ} (h0 : v0 < 256) : v1 <<< 8 ||| v0 = v1 * 256 + v0 := by
  rw [← Nat.shiftLeft_add_eq_or_of_lt h0, Nat.shiftLeft_eq]

theorem or_four {v0 v1 v2 v3 : ℕ} (h0 : v0 < 256) (h1 : v1 < 256) (h2 : v2 < 256) :
    v1 <<< 8 ||| v0 ||| (v3 <<< 24 ||| v2 <<< 16) = v0 + v1 * 256 + v2 * 65536 + v3 * 16777216 := by
  have hlow : v1 <<< 8 ||| v0 < 2 ^ 16 := by
    rw [or_two h0]
    omega
  have hhigh : v3 <<< 24 ||| v2 <<< 16 = (v3 <<< 8 ||| v2) <<< 16 := by
    rw [Nat.shiftLeft_or_distrib, ← Nat.shiftLeft_add]
  rw [Nat.or_comm, hhigh, ← Nat.shiftLeft_add_eq_or_of_lt hlow, or_two h0, or_two h2, Nat.shiftLeft_eq]
  omega

theorem attWord_octets {n : ℕ} (h : n < 4294967296) (rest : List UInt8) :
    attWord ((numberOctets 4 n).reverse ++ rest) = some n := by
  have hword : attWord ((numberOctets 4 n).reverse ++ rest) = some (n % 256 ||| (n / 256 % 256) <<< 8 |||
      (n / 256 / 256 % 256) <<< 16 ||| (n / 256 / 256 / 256 % 256) <<< 24) := rfl
  rw [hword, Nat.or_assoc (_ ||| _), Nat.or_comm (n % 256), Nat.or_comm (_ <<< 16), or_four (by omega) (by omega) (by omega)]
  congr 1
  omega

theorem sdpOctets_eq (n : ℕ) : sdpOctets n = numberOctets 4 n := by
  rw [sdpOctets, numberOctets_four, octet_mask, octet_mask, octet_mask, octet_mask, Nat.shiftRight_eq_div_pow, Nat.shiftRight_eq_div_pow,
    Nat.shiftRight_eq_div_pow, Nat.div_div_eq_div_mul n, Nat.div_div_eq_div_mul n]

/-! ### The decoders -/

/-- A UUID of two octets. -/
theorem gattGetAttUuid_two {n : ℕ} (h : n < 65536) (uuid : List ℕ) :
    gattGetAttUuid (numberOctets 2 n).reverse uuid = some (n :: attBaseUuid, .uuid16) := by
  change some (((n / 256 % 256) <<< 8 ||| n % 256) :: attBaseUuid, GattUuidType.uuid16) = _
  have hword : (n / 256 % 256) <<< 8 ||| n % 256 = n := by
    rw [or_two (by omega)]
    omega
  rw [hword]

/-- A UUID of four octets, which is never taken for one of two octets. -/
theorem gattGetAttUuid_four {n : ℕ} (h : n < 4294967296) (uuid : List ℕ) :
    gattGetAttUuid (numberOctets 4 n).reverse uuid = some (n :: attBaseUuid, .uuid32) := by
  change some (((n / 256 % 256) <<< 8 ||| n % 256 |||
    ((n / 256 / 256 / 256 % 256) <<< 24 ||| (n / 256 / 256 % 256) <<< 16)) :: attBaseUuid, GattUuidType.uuid32) = _
  have hword : (n / 256 % 256) <<< 8 ||| n % 256 ||| ((n / 256 / 256 / 256 % 256) <<< 24 ||| (n / 256 / 256 % 256) <<< 16) =
      n := by
    rw [or_four (by omega) (by omega) (by omega)]
    omega
  rw [hword]

theorem fourWords {uuid : List ℕ} (h : uuid.length = 4) : ∃ a b c d, uuid = [a, b, c, d] := by
  obtain ⟨a, uuid, rfl⟩ := exists_cons_of_length_eq_add_one h
  obtain ⟨b, c, d, rfl⟩ := length_eq_three.mp (Nat.succ.inj h)
  exact ⟨a, b, c, d, rfl⟩

/-- Four words are read from their octets. -/
theorem gattGetAttUuid_words {w0 w1 w2 w3 : ℕ} (h0 : w0 < 4294967296) (h1 : w1 < 4294967296) (h2 : w2 < 4294967296)
    (h3 : w3 < 4294967296) {uuid : List ℕ} (huuid : uuid.length = 4) :
    gattGetAttUuid (numberOctets 4 w0 ++ numberOctets 4 w1 ++ numberOctets 4 w2 ++ numberOctets 4 w3).reverse uuid =
      some ([w0, w1, w2, w3], uuidTypeOf [w0, w1, w2, w3]) := by
  obtain ⟨a, b, c, d, rfl⟩ := fourWords huuid
  have hlast := attWord_octets h3 ((numberOctets 4 w0 ++ numberOctets 4 w1 ++ numberOctets 4 w2).reverse)
  have hthird := attWord_octets h2 ((numberOctets 4 w0 ++ numberOctets 4 w1).reverse)
  have hsecond := attWord_octets h1 (numberOctets 4 w0).reverse
  have hfirst := attWord_octets h0 []
  set value := (numberOctets 4 w0 ++ numberOctets 4 w1 ++ numberOctets 4 w2 ++ numberOctets 4 w3).reverse with hvalue
  have hlength : value.length = 16 := by
    simp only [hvalue, length_reverse, length_append, length_numberOctets]
  have hwords : (List.range 4).foldlM (fun uuid i => do storeWord uuid (3 - i) (← attWord (value.drop (4 * i))))
      [a, b, c, d] = some [w0, w1, w2, w3] := by
    have h0 : attWord (value.drop 0) = some w3 := hlast
    have h4 : attWord (value.drop 4) = some w2 := hthird
    have h8 : attWord (value.drop 8) = some w1 := hsecond
    have h12 : attWord (value.drop 12) = some w0 := hfirst
    change (do
      let uuid ← storeWord [a, b, c, d] 3 (← attWord (value.drop 0))
      let uuid ← storeWord uuid 2 (← attWord (value.drop 4))
      let uuid ← storeWord uuid 1 (← attWord (value.drop 8))
      let uuid ← storeWord uuid 0 (← attWord (value.drop 12))
      some uuid) = _
    rw [h0, h4, h8, h12]
    rfl
  rw [gattGetAttUuid, hlength, hwords]
  rfl

section Sdp

variable {mem : ℕ → UInt8} {val : Region} {uuid : List ℕ}

/-- The number in a region is the word at its end. -/
theorem regionReadUnsigned_last {n : ℕ} (hn : n < 4294967296) {front : List UInt8}
    (hval : val.octets mem = front ++ numberOctets 4 n) : regionReadUnsigned mem val = n := by
  rw [regionReadUnsigned_eq, hval, bigEndian_append, bigEndian_numberOctets, length_numberOctets]
  omega

theorem sdpWords_turn {i : ℕ} (h : val.begin < val.end) (hi : i < uuid.length) (n : ℕ) : sdpWords mem (n + 1) i val uuid =
    sdpWords mem n (i + 1) (val.skip 4) (uuid.set i (regionReadUnsigned mem val)) := by
  rw [sdpWords, if_pos h, storeWord, if_pos hi]
  rfl

theorem sdpWords_end (h : val.end ≤ val.begin) (n i : ℕ) : sdpWords mem (n + 1) i val uuid = some uuid := by
  rw [sdpWords, if_neg (Nat.not_lt.mpr h)]

/-- A region of at most four octets holds one word. -/
theorem gattGetSdpUuid_short (h : val.octets mem ≠ []) (hle : (val.octets mem).length ≤ 4) (huuid : uuid.length = 4) :
    gattGetSdpUuid mem val uuid =
      some (regionReadUnsigned mem val :: attBaseUuid, uuidTypeOf (regionReadUnsigned mem val :: attBaseUuid)) := by
  obtain ⟨a, b, c, d, rfl⟩ := fourWords huuid
  have hpos := length_pos_iff.mpr h
  rw [length_octets] at hle hpos
  obtain ⟨n, hn⟩ := Nat.exists_eq_add_of_lt hpos
  have hend : (val.skip 4).end ≤ (val.skip 4).begin := by
    change val.end ≤ val.begin + 4
    omega
  rw [gattGetSdpUuid, hn, sdpWords_turn (by omega) (Nat.succ_pos 3), sdpWords_end hend]
  rfl

/-- A region of sixteen octets is read four times, each time up to its end. -/
theorem gattGetSdpUuid_long {n : ℕ} (hn : n < 4294967296) {front : List UInt8} (hfront : front.length = 12)
    (hval : val.octets mem = front ++ numberOctets 4 n) (huuid : uuid.length = 4) :
    gattGetSdpUuid mem val uuid = some ([n, n, n, n], uuidTypeOf [n, n, n, n]) := by
  obtain ⟨a, b, c, d, rfl⟩ := fourWords huuid
  have hlength := congrArg List.length hval
  rw [length_octets, length_append, length_numberOctets, hfront] at hlength
  have hread : ∀ k, k ≤ 12 → regionReadUnsigned mem (val.skip k) = n := by
    intro k hk
    refine @regionReadUnsigned_last mem (val.skip k) n hn (front.drop k) ?_
    rw [octets_skip, hval, drop_append_of_le_length (by omega)]
  have hturns : sdpWords mem 17 0 val [a, 0x00001000, 0x80000080, 0x5f9b34fb] = some [n, n, n, n] := by
    have h0 : regionReadUnsigned mem val = n := hread 0 (by omega)
    have h4 : regionReadUnsigned mem (val.skip 4) = n := hread 4 (by omega)
    have h8 : regionReadUnsigned mem ((val.skip 4).skip 4) = n := hread 8 (by omega)
    have h12 : regionReadUnsigned mem (((val.skip 4).skip 4).skip 4) = n := hread 12 (by omega)
    have hpos : ∀ k, k ≤ 12 → val.begin + k < val.end := by omega
    rw [sdpWords_turn (hpos 0 (by omega)) (Nat.succ_pos 3), h0, sdpWords_turn (hpos 4 (by omega)) (by simp), h4,
      sdpWords_turn (hpos 8 (by omega)) (by simp), h8, sdpWords_turn (hpos 12 (by omega)) (by simp), h12, sdpWords_end]
    · rfl
    · change val.end ≤ val.begin + 4 + 4 + 4 + 4
      omega
  rw [gattGetSdpUuid, hlength]
  change (sdpWords mem 17 0 val [a, 0x00001000, 0x80000080, 0x5f9b34fb]).bind _ = _
  rw [hturns]
  rfl

end Sdp

/-! ### The encoders -/

section Filter

variable {u : List ℕ} {k w i : ℕ}

/-- A turn within a word. -/
theorem filterTurn_shift (hw : u[k]? = some w) (hi : i &&& 3 ≠ 3) (value : List UInt8) :
    filterTurn ⟨u, k, value⟩ i = some ⟨u.set k (w / 256), k, value ++ [UInt8.ofNat w]⟩ := by
  rw [filterTurn, if_neg (Int.not_lt.mpr (Int.natCast_nonneg k))]
  dsimp only [Int.toNat_natCast]
  rw [hw]
  change some (if i &&& 3 = 3 then _ else _) = _
  rw [if_neg hi, octet_mask, Nat.shiftRight_eq_div_pow]

/-- The last turn of a word. -/
theorem filterTurn_next (hw : u[k]? = some w) (hi : i &&& 3 = 3) (value : List UInt8) :
    filterTurn ⟨u, k, value⟩ i = some ⟨u, k - 1, value ++ [UInt8.ofNat w]⟩ := by
  rw [filterTurn, if_neg (Int.not_lt.mpr (Int.natCast_nonneg k))]
  dsimp only [Int.toNat_natCast]
  rw [hw]
  change some (if i &&& 3 = 3 then _ else _) = _
  rw [if_pos hi, octet_mask]

/-- Four turns write a word, and go on to the one before it. -/
theorem filter_word (hw : u[k]? = some w) (j : ℕ) (value : List UInt8) :
    [4 * j, 4 * j + 1, 4 * j + 2, 4 * j + 3].foldlM filterTurn ⟨u, k, value⟩ =
      some ⟨u.set k (w / 256 / 256 / 256), k - 1, value ++ (numberOctets 4 w).reverse⟩ := by
  obtain ⟨hk, -⟩ := List.getElem?_eq_some_iff.mp hw
  have hset : ∀ x, (u.set k x)[k]? = some x := fun x => List.getElem?_set_self hk
  have hmod : ∀ i, i &&& 3 = i % 4 := fun i => Nat.and_two_pow_sub_one_eq_mod i 2
  rw [foldlM_cons, filterTurn_shift hw (by rw [hmod]; omega), bind_eq_bind, bind_some,
    foldlM_cons, filterTurn_shift (hset _) (by rw [hmod]; omega), bind_eq_bind, bind_some, set_set,
    foldlM_cons, filterTurn_shift (hset _) (by rw [hmod]; omega), bind_eq_bind, bind_some, set_set,
    foldlM_cons, filterTurn_next (hset _) (by rw [hmod]; omega), bind_eq_bind, bind_some, foldlM_nil,
    numberOctets_four]
  simp

end Filter

namespace Uuid

theorem exists_words (u : Uuid) : ∃ w0 w1 w2 w3, u.words = [w0, w1, w2, w3] ∧ w0 < 4294967296 := by
  cases u with
  | uuid16 u => exact ⟨_, _, _, _, rfl, Nat.lt_trans u.isLt (by decide)⟩
  | uuid32 u => exact ⟨_, _, _, _, rfl, u.isLt⟩
  | uuid128 w0 w1 w2 w3 => exact ⟨_, _, _, _, rfl, w0.isLt⟩

theorem findByTypeValue_eq (u : Uuid) : gattFindByTypeValueReq u.type u.words = some u.shortest.reverse := by
  obtain ⟨w0, w1, w2, w3, hwords, -⟩ := u.exists_words
  have hlong : gattFindByTypeValueReq .uuid128 [w0, w1, w2, w3] =
      some ([w0, w1, w2, w3].flatMap (numberOctets 4)).reverse := by
    have hrange : List.range 16 = [4 * 0, 4 * 0 + 1, 4 * 0 + 2, 4 * 0 + 3] ++ [4 * 1, 4 * 1 + 1, 4 * 1 + 2, 4 * 1 + 3] ++
        [4 * 2, 4 * 2 + 1, 4 * 2 + 2, 4 * 2 + 3] ++ [4 * 3, 4 * 3 + 1, 4 * 3 + 2, 4 * 3 + 3] := rfl
    have h3 : [4 * 0, 4 * 0 + 1, 4 * 0 + 2, 4 * 0 + 3].foldlM filterTurn ⟨[w0, w1, w2, w3], ((3 : ℕ) : ℤ), []⟩ =
        some ⟨[w0, w1, w2, w3 / 256 / 256 / 256], ((2 : ℕ) : ℤ), (numberOctets 4 w3).reverse⟩ := filter_word rfl 0 []
    have h2 : [4 * 1, 4 * 1 + 1, 4 * 1 + 2, 4 * 1 + 3].foldlM filterTurn
        ⟨[w0, w1, w2, w3 / 256 / 256 / 256], ((2 : ℕ) : ℤ), (numberOctets 4 w3).reverse⟩ =
        some ⟨[w0, w1, w2 / 256 / 256 / 256, w3 / 256 / 256 / 256], ((1 : ℕ) : ℤ),
          (numberOctets 4 w3).reverse ++ (numberOctets 4 w2).reverse⟩ := filter_word rfl 1 _
    have h1 : [4 * 2, 4 * 2 + 1, 4 * 2 + 2, 4 * 2 + 3].foldlM filterTurn
        ⟨[w0, w1, w2 / 256 / 256 / 256, w3 / 256 / 256 / 256], ((1 : ℕ) : ℤ),
          (numberOctets 4 w3).reverse ++ (numberOctets 4 w2).reverse⟩ =
        some ⟨[w0, w1 / 256 / 256 / 256, w2 / 256 / 256 / 256, w3 / 256 / 256 / 256], ((0 : ℕ) : ℤ),
          (numberOctets 4 w3).reverse ++ (numberOctets 4 w2).reverse ++ (numberOctets 4 w1).reverse⟩ := filter_word rfl 2 _
    have h0 := @filter_word [w0, w1 / 256 / 256 / 256, w2 / 256 / 256 / 256, w3 / 256 / 256 / 256] 0 w0 rfl 3
      ((numberOctets 4 w3).reverse ++ (numberOctets 4 w2).reverse ++ (numberOctets 4 w1).reverse)
    change ((List.range 16).foldlM filterTurn ⟨[w0, w1, w2, w3], ((3 : ℕ) : ℤ), []⟩).map Filter.value = _
    rw [hrange, foldlM_append, foldlM_append, foldlM_append, h3, bind_eq_bind, bind_some, h2,
      bind_some, h1, bind_some, h0]
    simp
  rw [shortest, hwords]
  cases u.type with
  | uuid16 =>
    change ([0, 1].foldlM filterTurn ⟨[w0, w1, w2, w3], ((0 : ℕ) : ℤ), []⟩).map Filter.value = _
    rw [foldlM_cons, filterTurn_shift rfl (by decide), bind_eq_bind, bind_some, foldlM_cons,
      filterTurn_shift rfl (by decide)]
    rfl
  | uuid32 =>
    have hword := @filter_word [w0, w1, w2, w3] 0 w0 rfl 0 []
    change ([4 * 0, 4 * 0 + 1, 4 * 0 + 2, 4 * 0 + 3].foldlM filterTurn ⟨[w0, w1, w2, w3], ((0 : ℕ) : ℤ), []⟩).map
      Filter.value = _
    rw [hword]
    rfl
  | uuid128 => exact hlong
  | none => exact hlong

theorem length_shortest (u : Uuid) : u.shortest.length = (sdpType u.type).2 := by
  obtain ⟨w0, w1, w2, w3, hwords, -⟩ := u.exists_words
  rw [shortest, hwords]
  cases u.type with
  | uuid16 => exact length_numberOctets 2 w0
  | uuid32 => exact length_numberOctets 4 w0
  | uuid128 => rfl
  | none => rfl

theorem search_eq (u : Uuid) : searchSdpService u.type u.words = some u.pattern := by
  obtain ⟨w0, w1, w2, w3, hwords, -⟩ := u.exists_words
  rw [pattern, length_shortest, shortest, hwords]
  cases u.type with
  | uuid16 =>
    have hupper : (sdpOctets (w0 <<< 16 % 4294967296)).take 2 = numberOctets 2 w0 := by
      rw [sdpOctets_eq, numberOctets_four, numberOctets_two, Nat.shiftLeft_eq]
      refine congrArg₂ (fun a b => [a, b]) (UInt8.toNat_inj.mp ?_) (UInt8.toNat_inj.mp ?_)
      · rw [toNat_octet, toNat_octet]
        omega
      · rw [toNat_octet, toNat_octet]
        omega
    change some (([0x35, 6, 0x19, 0x00, 0x07, 0x19] : List UInt8) ++ (sdpOctets (w0 <<< 16 % 4294967296)).take 2) = _
    rw [hupper]
    rfl
  | uuid32 =>
    change some ([0x35, 8, 0x19, 0x00, 0x07, 0x1a] ++ sdpOctets w0) = _
    rw [sdpOctets_eq]
    rfl
  | uuid128 =>
    change some ([0x35, 20, 0x19, 0x00, 0x07, 0x1c] ++ [w0, w1, w2, w3].flatMap sdpOctets) = _
    rw [funext sdpOctets_eq]
    rfl
  | none =>
    change some ([0x35, 20, 0x19, 0x00, 0x07, 0x1c] ++ [w0, w1, w2, w3].flatMap sdpOctets) = _
    rw [funext sdpOctets_eq]
    rfl

/-- The mask of `gatt_get_sdp_uuid` asks for a number of 16 bits. -/
theorem and_mask_eq_zero {n : ℕ} (h : n < 4294967296) : n &&& 0xffff0000 = 0 ↔ n < 65536 := by
  have hmod : (n &&& 0xffff0000) % 2 ^ 16 = 0 := by
    rw [Nat.and_mod_two_pow]
    exact Nat.and_zero _
  have hdiv : (n &&& 0xffff0000) / 2 ^ 16 = n / 2 ^ 16 % 2 ^ 16 := by
    rw [Nat.and_div_two_pow, ← Nat.and_two_pow_sub_one_eq_mod]
  omega

theorem type_eq (u : Uuid) : u.type = uuidTypeOf u.words := by
  obtain ⟨w0, w1, w2, w3, hwords, h0⟩ := u.exists_words
  have hmask := and_mask_eq_zero h0
  rw [type, uuidTypeOf, hwords]
  by_cases hbase : [w0, w1, w2, w3].drop 1 = attBaseUuid
  · rw [if_pos hbase, if_pos hbase]
    exact (if_congr hmask rfl rfl).symm
  · rw [if_neg hbase, if_neg hbase]

theorem type_uuid16 (u : BitVec 16) : (uuid16 u).type = .uuid16 := (if_pos rfl).trans (if_pos u.isLt)

theorem type_uuid32 (u : BitVec 32) : (uuid32 u).type = if u.toNat < 65536 then .uuid16 else .uuid32 := if_pos rfl

theorem exists_region (l : List UInt8) : ∃ mem, ∃ val : Region, val.octets mem = l := by
  refine ⟨fun i => l.getD i 0, ⟨0, l.length⟩, ext_getElem ?_ fun i h1 h2 => ?_⟩
  · simp [Region.octets]
  · simp [Region.octets, h2]

/-- A short UUID is read from a region. -/
theorem sdp_short {n width : ℕ} (hn : n < 256 ^ width) (hpos : 0 < width) (hle : width ≤ 4) {mem : ℕ → UInt8} {val : Region}
    (hval : val.octets mem = numberOctets width n) {uuid : List ℕ} (huuid : uuid.length = 4) :
    gattGetSdpUuid mem val uuid = some (n :: attBaseUuid, uuidTypeOf (n :: attBaseUuid)) := by
  have hread : regionReadUnsigned mem val = n := by
    have hpow : 256 ^ width ≤ 256 ^ 4 := Nat.pow_le_pow_right (by decide) hle
    rw [regionReadUnsigned_eq, hval, bigEndian_numberOctets, Nat.mod_eq_of_lt hn]
    omega
  have hlength := length_numberOctets width n
  rw [← hread]
  refine gattGetSdpUuid_short ?_ ?_ huuid
  · rw [hval, ← length_pos_iff, hlength]
    exact hpos
  · rw [hval, hlength]
    exact hle

/-- The four agree on a UUID of 16 bits, on one of 32 bits that needs them, and on one of 128 bits whose words are all the
same. -/
theorem codecsAgree_iff (u : Uuid) : u.Agrees ↔ u.ReadRight := by
  constructor
  · intro h
    cases u with
    | uuid16 u => trivial
    | uuid32 u =>
      have hatt := (gattGetAttUuid_four u.isLt [0, 0, 0, 0]).symm.trans (h.att [0, 0, 0, 0] rfl)
      have htype : GattUuidType.uuid32 = (uuid32 u).type := congrArg Prod.snd (some.inj hatt)
      by_contra hsmall
      rw [type_uuid32, if_pos (Nat.not_le.mp hsmall)] at htype
      cases htype
    | uuid128 w0 w1 w2 w3 =>
      obtain ⟨mem, val, hval⟩ := exists_region (uuid128 w0 w1 w2 w3).octets
      have hsdp := h.sdp mem val [0, 0, 0, 0] rfl hval
      have hlong := gattGetSdpUuid_long w3.isLt (by simp [length_numberOctets]) hval (rfl : [0, 0, 0, 0].length = 4)
      have hwords := congrArg Prod.fst (some.inj (hlong.symm.trans hsdp))
      obtain ⟨h0, hwords⟩ := List.cons.inj hwords
      obtain ⟨h1, hwords⟩ := List.cons.inj hwords
      obtain ⟨h2, -⟩ := List.cons.inj hwords
      exact ⟨BitVec.toNat_inj.mp h0.symm, BitVec.toNat_inj.mp h1.symm, BitVec.toNat_inj.mp h2.symm⟩
  · intro h
    refine ⟨?_, ?_, u.findByTypeValue_eq, u.search_eq⟩
    · intro uuid huuid
      rw [type_eq]
      cases u with
      | uuid16 u =>
        rw [← type_eq, type_uuid16]
        exact gattGetAttUuid_two u.isLt uuid
      | uuid32 u =>
        rw [← type_eq, type_uuid32, if_neg (Nat.not_lt.mpr h)]
        exact gattGetAttUuid_four u.isLt uuid
      | uuid128 w0 w1 w2 w3 => exact gattGetAttUuid_words w0.isLt w1.isLt w2.isLt w3.isLt huuid
    · intro mem val uuid huuid hval
      rw [type_eq]
      cases u with
      | uuid16 u | uuid32 u => exact sdp_short u.isLt (by decide) (by decide) hval huuid
      | uuid128 w0 w1 w2 w3 =>
        obtain ⟨h0, h1, h2⟩ := h
        have hlong := gattGetSdpUuid_long w3.isLt (by simp [length_numberOctets]) hval huuid
        rw [h0, h1, h2]
        exact hlong

/-- The UUID of the battery service, over the base UUID, is read from a service record as its last word four times. -/
theorem not_codecsAgree : ¬ ∀ u : Uuid, u.Agrees := by
  intro h
  have hsdp := (h (uuid128 0x180F 0x1000 0x80000080 0x5f9b34fb)).sdp
    (fun i => [0x00, 0x00, 0x18, 0x0F, 0x00, 0x00, 0x10, 0x00, 0x80, 0x00, 0x00, 0x80, 0x5F, 0x9B, 0x34, 0xFB].getD i 0)
    ⟨0, 16⟩ [0, 0, 0, 0] rfl (by decide)
  exact absurd hsdp (by decide)

end Uuid

end Cbps.Gatt
