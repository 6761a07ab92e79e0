import Cbps.Hfp.Bia
import Cbps.Lib.Loop
import Cbps.Lib.Runs

/-!
# The list of indicators

`hfp_indicators_handler.c`: the audio gateway lists its indicators in `+CIND`, and the positions of those that are known
are stored for the link. `AT+BIA` is built from the table later on, in a buffer that is sized by the number of indicators.

The table outlives a list without service and call, `inBuffer_iff`; the command has one value too many, `lists_iff`; and
the array of extra indicators is extended by one octet for an entry of two, `stores_iff`.
-/

namespace Cbps.Hfp.IndicatorList

open Lib List

open Bia (OptionalIndicators IndicatorStatus)
open Lib (Yields)

/-! ### Reading the list -/

/-- `hfpSkipSpace`. A pointer is the text from there to its end. -/
def hfpSkipSpace (p : Option (List Char)) : Option (List Char) :=
  p.map fun l => l.dropWhile fun c => c = ' ' ∨ c = ',' ∨ c = ';'

/-- `hfpSkipPastChar`. -/
def hfpSkipPastChar (p : Option (List Char)) (ch : Char) : Option (List Char) :=
  p.bind fun l => (l.dropWhile (· ≠ ch)).tail?

/-- `matchChar`. -/
def matchChar (p : Option (List Char)) (ch : Char) : Option (List Char) :=
  p.bind fun l => if l.head? = some ch then l.tail? else none

/-- What the firmware answers: whether two blocks of a size are equal, how far it is to a character, and which blocks can
be allocated. -/
structure Firmware where
  utilCompare : Option (List Char) → List Char → ℕ → Bool
  utilFind : Char → Option (List Char) → ℕ → ℕ
  realloc : ℕ → Bool
  malloc : ℕ → Bool

/-- `hfp_indicator_indexes`. `room` is the size of the array of extra indicators in octets. -/
structure IndicatorIndexes where
  indicatorIdxs : Bia.Indicators
  extraIndicatorIdxs : List ℕ
  room : ℕ
  numIndicators : ℕ
  deriving DecidableEq, Repr

/-- The state of the loop of `hfpHandleIndicatorList`. -/
structure Scan where
  indicator : Option (List Char)
  index : ℕ
  indIndexes : Bia.Indicators
  extraIndicatorIdxs : List ℕ
  room : ℕ
  deriving DecidableEq, Repr

variable (fw : Firmware)

/-- `hfpStoreUnhandledIndicator`. -/
def hfpStoreUnhandledIndicator (cindIndex : ℕ) (s : Scan) : Scan :=
  if fw.realloc (s.extraIndicatorIdxs.length + 1) then
    { s with extraIndicatorIdxs := s.extraIndicatorIdxs ++ [cindIndex], room := s.extraIndicatorIdxs.length + 1 }
  else s

/-- The strings of the configuration, each to the end of the whole: one at the start, and one behind every `\\r`. -/
def configured (l : List Char) : List (List Char) :=
  if l = [] then [] else l :: (l.tails.filter fun t => t.head? = some '\r' ∧ t.tail ≠ []).map List.tail

/-- `hfpHandleExtraIndicatorsList`. -/
def hfpHandleExtraIndicatorsList (extra : List Char) (length : ℕ) (s : Scan) : Scan :=
  let indicatorLength := fw.utilFind '"' s.indicator length
  (configured extra).foldl (fun s' name =>
    let cindIndex := if fw.utilCompare s.indicator name indicatorLength then s.index else 0
    if cindIndex ≠ 0 then hfpStoreUnhandledIndicator fw cindIndex s' else s') s

/-- The position of a call setup indicator, of which there may be two. -/
def setCallSetup (ind : Bia.Indicators) (index : ℕ) : Bia.Indicators :=
  if ind.callSetup ≠ 0 then { ind with extraCallSetup := index } else { ind with callSetup := index }

/-- The chain of comparisons in `hfpHandleIndicatorList`. -/
def storeIndex (indicator : Option (List Char)) (index : ℕ) (ind : Bia.Indicators) : Bia.Indicators :=
  if fw.utilCompare indicator ['s', 'e', 'r', 'v', 'i', 'c', 'e'] 7 then { ind with service := index }
  else if fw.utilCompare indicator ['c', 'a', 'l', 'l', 's', 'e', 't', 'u', 'p'] 9 then setCallSetup ind index
  else if fw.utilCompare indicator ['c', 'a', 'l', 'l', '_', 's', 'e', 't', 'u', 'p'] 10 then setCallSetup ind index
  else if fw.utilCompare indicator ['c', 'a', 'l', 'l', '"'] 5 then { ind with call := index }
  else if fw.utilCompare indicator ['s', 'i', 'g', 'n', 'a', 'l'] 6 then { ind with signalStrength := index }
  else if fw.utilCompare indicator ['r', 'o', 'a', 'm'] 4 then { ind with roamingStatus := index }
  else if fw.utilCompare indicator ['b', 'a', 't', 't', 'c', 'h', 'g'] 7 then { ind with batteryCharge := index }
  else if fw.utilCompare indicator ['c', 'a', 'l', 'l', 'h', 'e', 'l', 'd'] 8 then { ind with callHoldStatus := index }
  else ind

/-- One turn of the loop of `hfpHandleIndicatorList`. -/
def listTurn (extra : Option (List Char)) (length : ℕ) (s : Scan) : Except Unit (Option Scan) :=
  match matchChar s.indicator '(' with
  | none => .ok none
  | some next =>
    let index := (s.index + 1) % 65536
    let indicator := matchChar (hfpSkipSpace (some next)) '"'
    let s := { s with indicator := indicator, index := index, indIndexes := storeIndex fw indicator index s.indIndexes }
    let s := match extra with
      | some extra => hfpHandleExtraIndicatorsList fw extra length s
      | none => s
    let indicator := hfpSkipPastChar (hfpSkipPastChar indicator ')') ')'
    let next := hfpSkipSpace (matchChar indicator ',')
    .ok (some { s with indicator := if next.isSome then next else indicator })

/-- No indicator is known. -/
def noIndicators : Bia.Indicators := ⟨0, 0, 0, 0, 0, 0, 0, 0⟩

/-- `hfpHandleIndicatorList`. `extra` are the extra indicators of the application, if there are any. -/
def hfpHandleIndicatorList (extra : Option (List Char)) (str : List Char) (t : IndicatorIndexes) :
    Except Unit IndicatorIndexes := do
  let s ← Lib.loop () (listTurn fw extra str.length) (str.length + 1)
    ⟨hfpSkipSpace (some str), 0, noIndicators, [], t.room⟩
  return {
    indicatorIdxs := if s.indIndexes.service ≠ 0 ∧ s.indIndexes.call ≠ 0 then s.indIndexes else t.indicatorIdxs
    extraIndicatorIdxs := s.extraIndicatorIdxs
    room := s.room
    numIndicators := s.index }

/-! ### Building the command -/

/-- The updates of the command, in their order. -/
def updates (t : IndicatorIndexes) (o : OptionalIndicators) : List (ℕ × IndicatorStatus) :=
  [(t.indicatorIdxs.service, o.service), (t.indicatorIdxs.signalStrength, o.signalStrength),
    (t.indicatorIdxs.roamingStatus, o.roamingStatus), (t.indicatorIdxs.batteryCharge, o.batteryCharge),
    (t.indicatorIdxs.call, .on), (t.indicatorIdxs.callSetup, .on), (t.indicatorIdxs.callHoldStatus, .on),
    (t.indicatorIdxs.extraCallSetup, .on)] ++ t.extraIndicatorIdxs.map fun i => (i, .on)

/-- What comes of a request to set the active indicators. -/
inductive Built
  /-- `AT+CMEE` is next, or there is no memory for the command. -/
  | skipped
  /-- An octet behind the buffer is written, or read. -/
  | beyond
  | sent (text : List Char)
  deriving DecidableEq, Repr

/-- `hfpHandleSetActiveIndicatorsReq`. -/
def hfpHandleSetActiveIndicatorsReq (isHfp106 : Bool) (o : OptionalIndicators) (t : IndicatorIndexes) : Built :=
  let size := Bia.sizeBia t.numIndicators
  if isHfp106 ∧ fw.malloc size then
    if size < Bia.atCmd.length + Bia.atEnd.length then .beyond
    else
      match (updates t o).foldlM (Bia.hfpUpdateIndicatorsCommand Bia.atCmd.length)
        (Bia.atCmd ++ Bia.fill size size Bia.atCmd.length ++ Bia.atEnd) with
      | none => .beyond
      -- the length is that of the text up to its end
      | some bia => if '\x00' ∈ bia then .sent (bia.takeWhile (· ≠ '\x00')) else .beyond
  else .skipped

/-! ### A link -/

/-- A link with what is configured for it. -/
structure Link where
  isHfp106 : Bool
  extra : Option (List Char)
  optional : OptionalIndicators
  t : IndicatorIndexes

/-- What happens on a link: a list arrives, of a length of sixteen bits, or the active indicators are to be set. -/
inductive Event
  | list (fw : Firmware) (str : List Char) (h : str.length < 65536)
  | request (fw : Firmware)

/-- One step of the link. -/
def step (s : Link) : Event → Option Link
  | .list fw str _ =>
    match hfpHandleIndicatorList fw s.extra str s.t with
    | .ok t => some { s with t := t }
    | .error _ => none
  | .request _ => some s

/-- A link before any list. -/
def init (isHfp106 : Bool) (extra : Option (List Char)) (optional : OptionalIndicators) : Link :=
  ⟨isHfp106, extra, optional, ⟨noIndicators, [], 0, 0⟩⟩

/-! ### The indicators of a text -/

/-- The pointer behind an indicator. -/
def behindIndicator (indicator : Option (List Char)) : Option (List Char) :=
  let indicator := hfpSkipPastChar (hfpSkipPastChar indicator ')') ')'
  let next := hfpSkipSpace (matchChar indicator ',')
  if next.isSome then next else indicator

/-- The indicators in a text, each as a pointer to its name. -/
def entries : ℕ → Option (List Char) → List (Option (List Char))
  | 0, _ => []
  | n + 1, p =>
    match matchChar p '(' with
    | none => []
    | some next =>
      let indicator := matchChar (hfpSkipSpace (some next)) '"'
      indicator :: entries n (behindIndicator indicator)

/-- The indicators that a response lists. -/
def listed (str : List Char) : List (Option (List Char)) := entries (str.length + 1) (hfpSkipSpace (some str))

/-- How many octets are left from a pointer on. -/
def left (p : Option (List Char)) : ℕ := (p.map List.length).getD 0

theorem left_hfpSkipSpace (p : Option (List Char)) : left (hfpSkipSpace p) ≤ left p := by
  cases p with
  | none => exact Nat.le_refl _
  | some l => exact (dropWhile_sublist _).length_le

theorem left_hfpSkipPastChar (p : Option (List Char)) (ch : Char) : left (hfpSkipPastChar p ch) ≤ left p - 1 := by
  cases p with
  | none => exact Nat.le_refl _
  | some l =>
    have hle := (dropWhile_sublist (fun c => decide (c ≠ ch)) (l := l)).length_le
    change left (l.dropWhile fun c => decide (c ≠ ch)).tail? ≤ l.length - 1
    rcases hdrop : l.dropWhile fun c => decide (c ≠ ch) with - | ⟨c, rest⟩
    · exact Nat.zero_le _
    · rw [hdrop, length_cons] at hle
      change rest.length ≤ l.length - 1
      omega

variable {p : Option (List Char)}

theorem matchChar_eq_some {ch : Char} {next : List Char} (h : matchChar p ch = some next) :
    left p = next.length + 1 := by
  cases p with
  | none => cases h
  | some l =>
    rw [matchChar, Option.bind_some] at h
    split at h
    · rcases l with - | ⟨c, rest⟩
      · cases h
      · rw [← Option.some.inj h]
        rfl
    · cases h

theorem left_matchChar (p : Option (List Char)) (ch : Char) : left (matchChar p ch) ≤ left p - 1 := by
  cases hmatch : matchChar p ch with
  | none => exact Nat.zero_le _
  | some next =>
    rw [matchChar_eq_some hmatch]
    exact Nat.le_refl _

theorem left_behindIndicator (p : Option (List Char)) : left (behindIndicator p) ≤ left p - 2 := by
  have hpast := left_hfpSkipPastChar p ')'
  have hpast' := left_hfpSkipPastChar (hfpSkipPastChar p ')') ')'
  rw [behindIndicator]
  split
  · have hnext := left_hfpSkipSpace (matchChar (hfpSkipPastChar (hfpSkipPastChar p ')') ')') ',')
    have hcomma := left_matchChar (hfpSkipPastChar (hfpSkipPastChar p ')') ')') ','
    omega
  · omega

/-- Every turn takes at least four octets, or what is left. -/
theorem left_turn {next : List Char} (h : matchChar p '(' = some next) :
    left (behindIndicator (matchChar (hfpSkipSpace (some next)) '"')) ≤ left p - 4 := by
  have hp := matchChar_eq_some h
  have hspace := left_hfpSkipSpace (some next)
  have hquote := left_matchChar (hfpSkipSpace (some next)) '"'
  have hbehind := left_behindIndicator (matchChar (hfpSkipSpace (some next)) '"')
  have hnext : left (some next) = next.length := rfl
  omega

theorem entries_of_left_eq_zero (h : left p = 0) (n : ℕ) : entries n p = [] := by
  cases n with
  | zero => rfl
  | succ n =>
    cases hmatch : matchChar p '(' with
    | none => rw [entries, hmatch]
    | some next =>
      have := matchChar_eq_some hmatch
      omega

theorem length_entries (n : ℕ) (p : Option (List Char)) : 4 * (entries n p).length ≤ left p + 3 := by
  induction n generalizing p with
  | zero => exact Nat.zero_le _
  | succ n ih =>
    rw [entries]
    cases hmatch : matchChar p '(' with
    | none => exact Nat.zero_le _
    | some next =>
      have hp := matchChar_eq_some hmatch
      have hturn := left_turn hmatch
      have hrest := ih (behindIndicator (matchChar (hfpSkipSpace (some next)) '"'))
      have hzero : left (behindIndicator (matchChar (hfpSkipSpace (some next)) '"')) = 0 → _ :=
        fun hleft => entries_of_left_eq_zero hleft n
      dsimp only
      rw [length_cons]
      by_cases hleft : left (behindIndicator (matchChar (hfpSkipSpace (some next)) '"')) = 0
      · rw [hzero hleft, length_nil]
        omega
      · omega

variable {str : List Char}

theorem length_listed (h : str.length < 65536) : (listed str).length ≤ 16384 := by
  have hentries := length_entries (str.length + 1) (hfpSkipSpace (some str))
  have hspace : left (hfpSkipSpace (some str)) ≤ str.length := left_hfpSkipSpace (some str)
  rw [listed]
  omega

/-! ### The loop -/

/-- What one indicator of the list changes. -/
def listEntry (extra : Option (List Char)) (length : ℕ) (s : Scan) (indicator : Option (List Char)) : Scan :=
  let index := (s.index + 1) % 65536
  let s := { s with indicator := indicator, index := index, indIndexes := storeIndex fw indicator index s.indIndexes }
  match extra with
  | some extra => hfpHandleExtraIndicatorsList fw extra length s
  | none => s

variable {fw}

/-- An indicator is overwritten by the next one. -/
theorem foldl_listEntry_indicator (extra : Option (List Char)) (length : ℕ) (s : Scan) (p q : Option (List Char))
    (es : List (Option (List Char))) :
    { es.foldl (listEntry fw extra length) { s with indicator := p } with indicator := q } =
      { es.foldl (listEntry fw extra length) s with indicator := q } := by
  cases es with
  | nil => rfl
  | cons e es => rfl

variable {extra : Option (List Char)} {length : ℕ} {s : Scan}

theorem loop_eq (extra : Option (List Char)) (length : ℕ) {n : ℕ} {s : Scan} (hn : left s.indicator < n) :
    ∃ p, Lib.loop () (listTurn fw extra length) n s =
      .ok { (entries n s.indicator).foldl (listEntry fw extra length) s with indicator := p } := by
  induction n generalizing s with
  | zero => omega
  | succ n ih =>
    rw [entries]
    cases hmatch : matchChar s.indicator '(' with
    | none =>
      refine ⟨s.indicator, loop_stop ?_ n⟩
      rw [listTurn, hmatch]
    | some next =>
      have hturn : listTurn fw extra length s = .ok (some
          { listEntry fw extra length s (matchChar (hfpSkipSpace (some next)) '"') with
            indicator := behindIndicator (matchChar (hfpSkipSpace (some next)) '"') }) := by
        rw [listTurn, hmatch]
        rfl
      have hleft := left_turn hmatch
      have hp := matchChar_eq_some hmatch
      obtain ⟨p, hp⟩ := ih (s := { listEntry fw extra length s (matchChar (hfpSkipSpace (some next)) '"') with
        indicator := behindIndicator (matchChar (hfpSkipSpace (some next)) '"') }) (by dsimp only; omega)
      refine ⟨p, ?_⟩
      rw [loop_turn hturn, hp, foldl_listEntry_indicator]
      rfl

/-- The scan of a response. -/
def scan (fw : Firmware) (extra : Option (List Char)) (str : List Char) (room : ℕ) : Scan :=
  (listed str).foldl (listEntry fw extra str.length) ⟨hfpSkipSpace (some str), 0, noIndicators, [], room⟩

theorem hfpHandleIndicatorList_eq (extra : Option (List Char)) (str : List Char) (t : IndicatorIndexes) :
    hfpHandleIndicatorList fw extra str t = .ok {
      indicatorIdxs := if (scan fw extra str t.room).indIndexes.service ≠ 0 ∧
        (scan fw extra str t.room).indIndexes.call ≠ 0 then (scan fw extra str t.room).indIndexes else t.indicatorIdxs
      extraIndicatorIdxs := (scan fw extra str t.room).extraIndicatorIdxs
      room := (scan fw extra str t.room).room
      numIndicators := (scan fw extra str t.room).index } := by
  have hleft : left (hfpSkipSpace (some str)) < str.length + 1 := Nat.lt_succ_of_le (left_hfpSkipSpace (some str))
  obtain ⟨p, hp⟩ := @loop_eq fw extra str.length _ ⟨hfpSkipSpace (some str), 0, noIndicators, [], t.room⟩ hleft
  rw [hfpHandleIndicatorList, hp]
  rfl

/-! ### What the scan has stored -/

/-- What holds of a scan. -/
structure Listing (s : Scan) : Prop where
  idx_le : ∀ i ∈ s.indIndexes.toList, i ≤ s.index
  extra_le : ∀ i ∈ s.extraIndicatorIdxs, i ≤ s.index
  room : s.extraIndicatorIdxs ≠ [] → s.room = s.extraIndicatorIdxs.length

variable {indicator : Option (List Char)} {index : ℕ} {ind : Bia.Indicators}

/-- Whatever the name is, one position is stored at most. -/
theorem storeIndex_elim {P : Bia.Indicators → Prop} {indicator : Option (List Char)} {index : ℕ} {ind : Bia.Indicators}
    (hservice : fw.utilCompare indicator ['s', 'e', 'r', 'v', 'i', 'c', 'e'] 7 = true → P { ind with service := index })
    (hsetup : P (setCallSetup ind index)) (hcall : P { ind with call := index })
    (hsignal : P { ind with signalStrength := index }) (hroam : P { ind with roamingStatus := index })
    (hbattery : P { ind with batteryCharge := index }) (hheld : P { ind with callHoldStatus := index }) (hkept : P ind) :
    P (storeIndex fw indicator index ind) := by
  rw [storeIndex]
  refine iteInduction hservice fun _ => iteInduction (fun _ => hsetup) fun _ => iteInduction (fun _ => hsetup) fun _ => ?_
  refine iteInduction (fun _ => hcall) fun _ => iteInduction (fun _ => hsignal) fun _ => ?_
  refine iteInduction (fun _ => hroam) fun _ => iteInduction (fun _ => hbattery) fun _ => ?_
  exact iteInduction (fun _ => hheld) fun _ => hkept

theorem mem_of_set {index i k : ℕ} {ind ind' : Bia.Indicators} (h : ind'.toList = ind.toList.set k index) :
    i ∈ ind'.toList → i = index ∨ i ∈ ind.toList := by
  intro hi
  rw [h] at hi
  exact (mem_or_eq_of_mem_set hi).symm

theorem mem_storeIndex {index i : ℕ} :
    i ∈ (storeIndex fw indicator index ind).toList → i = index ∨ i ∈ ind.toList := by
  have hsetup : i ∈ (setCallSetup ind index).toList → i = index ∨ i ∈ ind.toList := by
    rw [setCallSetup]
    split
    · exact @mem_of_set index i 7 ind _ rfl
    · exact @mem_of_set index i 5 ind _ rfl
  exact @storeIndex_elim fw (fun ind' => i ∈ ind'.toList → i = index ∨ i ∈ ind.toList) indicator index ind
    (fun _ => @mem_of_set index i 0 ind _ rfl) hsetup (@mem_of_set index i 4 ind _ rfl)
    (@mem_of_set index i 1 ind _ rfl) (@mem_of_set index i 2 ind _ rfl) (@mem_of_set index i 3 ind _ rfl)
    (@mem_of_set index i 6 ind _ rfl) Or.inr

theorem store_cases (cindIndex : ℕ) (s : Scan) : hfpStoreUnhandledIndicator fw cindIndex s = s ∨
    hfpStoreUnhandledIndicator fw cindIndex s = { s with
      extraIndicatorIdxs := s.extraIndicatorIdxs ++ [cindIndex], room := s.extraIndicatorIdxs.length + 1 } := by
  rw [hfpStoreUnhandledIndicator]
  split
  · exact .inr rfl
  · exact .inl rfl

/-- Storing extra indicators touches nothing else, and the array has an octet for each. -/
theorem handleExtra_keeps (extra : List Char) (length : ℕ) (s : Scan) :
    (hfpHandleExtraIndicatorsList fw extra length s).index = s.index ∧
      (hfpHandleExtraIndicatorsList fw extra length s).indIndexes = s.indIndexes ∧
      (∀ i ∈ (hfpHandleExtraIndicatorsList fw extra length s).extraIndicatorIdxs,
        i = s.index ∨ i ∈ s.extraIndicatorIdxs) ∧
      ((s.extraIndicatorIdxs ≠ [] → s.room = s.extraIndicatorIdxs.length) →
        (hfpHandleExtraIndicatorsList fw extra length s).extraIndicatorIdxs ≠ [] →
        (hfpHandleExtraIndicatorsList fw extra length s).room =
          (hfpHandleExtraIndicatorsList fw extra length s).extraIndicatorIdxs.length) := by
  rw [hfpHandleExtraIndicatorsList]
  refine List.foldlRecOn (motive := fun s' : Scan => s'.index = s.index ∧ s'.indIndexes = s.indIndexes ∧
    (∀ i ∈ s'.extraIndicatorIdxs, i = s.index ∨ i ∈ s.extraIndicatorIdxs) ∧
    ((s.extraIndicatorIdxs ≠ [] → s.room = s.extraIndicatorIdxs.length) →
      s'.extraIndicatorIdxs ≠ [] → s'.room = s'.extraIndicatorIdxs.length))
    _ _ ⟨rfl, rfl, fun i hi => .inr hi, fun h => h⟩ ?_
  rintro s' ⟨hindex, hind, hmem, hroom⟩ name -
  dsimp only
  split
  · rename_i hmatch
    rcases store_cases s.index s' with h | h
    · rw [h, ite_self]
      exact ⟨hindex, hind, hmem, hroom⟩
    · rw [h]
      split
      · refine ⟨hindex, hind, fun i hi => ?_, fun _ _ => ?_⟩
        · rcases mem_append.mp hi with hi | hi
          · exact hmem i hi
          · exact .inl (mem_singleton.mp hi)
        · rw [length_append]
          rfl
      · exact ⟨hindex, hind, hmem, hroom⟩
  · rw [if_neg (not_not.mpr rfl)]
    exact ⟨hindex, hind, hmem, hroom⟩

/-- The scan with a standard indicator stored. -/
def Scan.stored (fw : Firmware) (s : Scan) (indicator : Option (List Char)) : Scan :=
  { s with
    indicator := indicator
    index := s.index + 1
    indIndexes := storeIndex fw indicator (s.index + 1) s.indIndexes }

theorem listEntry_none (hlt : s.index + 1 < 65536) (indicator : Option (List Char)) :
    listEntry fw none length s indicator = s.stored fw indicator := by
  simp only [listEntry, Nat.mod_eq_of_lt hlt, Scan.stored]

theorem listEntry_some {extra : List Char} (hlt : s.index + 1 < 65536)
    (indicator : Option (List Char)) : listEntry fw (some extra) length s indicator =
      hfpHandleExtraIndicatorsList fw extra length (s.stored fw indicator) := by
  simp only [listEntry, Nat.mod_eq_of_lt hlt, Scan.stored]

/-- What one indicator changes. -/
theorem listEntry_keeps (hlt : s.index + 1 < 65536)
    (indicator : Option (List Char)) : (listEntry fw extra length s indicator).index = s.index + 1 ∧
      (listEntry fw extra length s indicator).indIndexes = storeIndex fw indicator (s.index + 1) s.indIndexes := by
  cases extra with
  | none =>
    rw [listEntry_none hlt]
    exact ⟨rfl, rfl⟩
  | some extra =>
    rw [listEntry_some hlt]
    obtain ⟨hi, hind, -⟩ := @handleExtra_keeps fw extra length (s.stored fw indicator)
    exact ⟨hi, hind⟩

theorem Listing.entry (h : Listing s) (hlt : s.index + 1 < 65536)
    (indicator : Option (List Char)) : Listing (listEntry fw extra length s indicator) := by
  obtain ⟨hindex, hind⟩ := @listEntry_keeps fw extra length _ hlt indicator
  refine ⟨fun i hi => ?_, fun i hi => ?_, fun hne => ?_⟩
  · rw [hindex]
    rw [hind] at hi
    rcases mem_storeIndex hi with rfl | hi
    · exact Nat.le_refl _
    · exact (h.idx_le i hi).trans (Nat.le_succ _)
  · rw [hindex]
    cases extra with
    | none =>
      rw [listEntry_none hlt] at hi
      exact (h.extra_le i hi).trans (Nat.le_succ _)
    | some extra =>
      rw [listEntry_some hlt] at hi
      rcases (handleExtra_keeps extra length (s.stored fw indicator)).2.2.1 i hi with rfl | hi
      · exact Nat.le_refl _
      · exact (h.extra_le i hi).trans (Nat.le_succ _)
  · cases extra with
    | none =>
      rw [listEntry_none hlt] at hne ⊢
      exact h.room hne
    | some extra =>
      rw [listEntry_some hlt] at hne ⊢
      exact (handleExtra_keeps extra length (s.stored fw indicator)).2.2.2 h.room hne

/-- The indicators are counted, and stored with the count. -/
theorem Listing.foldl (h : Listing s)
    (es : List (Option (List Char))) (hlt : s.index + es.length < 65536) :
    Listing (es.foldl (listEntry fw extra length) s) ∧
      (es.foldl (listEntry fw extra length) s).index = s.index + es.length := by
  induction es generalizing s with
  | nil => exact ⟨h, rfl⟩
  | cons e es ih =>
    rw [length_cons] at hlt
    have hindex : (listEntry fw extra length s e).index = s.index + 1 := (listEntry_keeps (by omega) e).1
    obtain ⟨hlisting, hcount⟩ := ih (h.entry (by omega) e) (by rw [hindex]; omega)
    refine ⟨hlisting, ?_⟩
    rw [foldl_cons, hcount, hindex, length_cons]
    omega

/-- A pointer that is taken for the name of the service indicator. -/
def IsService (fw : Firmware) (indicator : Option (List Char)) : Prop :=
  fw.utilCompare indicator ['s', 'e', 'r', 'v', 'i', 'c', 'e'] 7 = true

/-- A pointer that is taken for the name of the call indicator. -/
def IsCall (fw : Firmware) (indicator : Option (List Char)) : Prop :=
  ¬ IsService fw indicator ∧ fw.utilCompare indicator ['c', 'a', 'l', 'l', 's', 'e', 't', 'u', 'p'] 9 = false ∧
    fw.utilCompare indicator ['c', 'a', 'l', 'l', '_', 's', 'e', 't', 'u', 'p'] 10 = false ∧
    fw.utilCompare indicator ['c', 'a', 'l', 'l', '"'] 5 = true

theorem setCallSetup_keeps (ind : Bia.Indicators) (index : ℕ) :
    (setCallSetup ind index).service = ind.service ∧ (setCallSetup ind index).call = ind.call := by
  rw [setCallSetup]
  split
  · exact ⟨rfl, rfl⟩
  · exact ⟨rfl, rfl⟩

theorem storeIndex_service (hindex : index ≠ 0) (ind : Bia.Indicators) :
    (storeIndex fw indicator index ind).service ≠ 0 ↔ IsService fw indicator ∨ ind.service ≠ 0 := by
  by_cases h : IsService fw indicator
  · rw [IsService] at h
    rw [storeIndex, if_pos h]
    exact iff_of_true hindex (.inl h)
  · rw [or_iff_right h]
    refine @storeIndex_elim fw (fun ind' => ind'.service ≠ 0 ↔ ind.service ≠ 0) indicator index ind (fun h' => absurd h' h)
      ?_ Iff.rfl Iff.rfl Iff.rfl Iff.rfl Iff.rfl Iff.rfl
    rw [(setCallSetup_keeps ind index).1]

theorem storeIndex_call (hindex : index ≠ 0) (ind : Bia.Indicators) :
    (storeIndex fw indicator index ind).call ≠ 0 ↔ IsCall fw indicator ∨ ind.call ≠ 0 := by
  rw [storeIndex, IsCall, IsService]
  by_cases hservice : fw.utilCompare indicator ['s', 'e', 'r', 'v', 'i', 'c', 'e'] 7 = true
  · rw [if_pos hservice, or_iff_right fun h => h.1 hservice]
  rw [if_neg hservice]
  by_cases hsetup : fw.utilCompare indicator ['c', 'a', 'l', 'l', 's', 'e', 't', 'u', 'p'] 9 = true
  · rw [if_pos hsetup, (setCallSetup_keeps ind index).2, or_iff_right fun h => by rw [hsetup] at h; cases h.2.1]
  rw [if_neg hsetup]
  by_cases hsetup' : fw.utilCompare indicator ['c', 'a', 'l', 'l', '_', 's', 'e', 't', 'u', 'p'] 10 = true
  · rw [if_pos hsetup', (setCallSetup_keeps ind index).2, or_iff_right fun h => by rw [hsetup'] at h; cases h.2.2.1]
  rw [if_neg hsetup']
  by_cases hcall : fw.utilCompare indicator ['c', 'a', 'l', 'l', '"'] 5 = true
  · rw [if_pos hcall]
    exact iff_of_true hindex
      (.inl ⟨hservice, Bool.not_eq_true _ ▸ hsetup, Bool.not_eq_true _ ▸ hsetup', hcall⟩)
  · rw [if_neg hcall, or_iff_right fun h => hcall h.2.2.2]
    repeat' split
    all_goals exact Iff.rfl

/-- Service and call have been stored exactly if they are listed. -/
theorem foldl_names (es : List (Option (List Char)))
    (hlt : s.index + es.length < 65536) :
    ((es.foldl (listEntry fw extra length) s).indIndexes.service ≠ 0 ↔
      (∃ e ∈ es, IsService fw e) ∨ s.indIndexes.service ≠ 0) ∧
    ((es.foldl (listEntry fw extra length) s).indIndexes.call ≠ 0 ↔
      (∃ e ∈ es, IsCall fw e) ∨ s.indIndexes.call ≠ 0) := by
  induction es generalizing s with
  | nil => simp
  | cons e es ih =>
    rw [length_cons] at hlt
    obtain ⟨hindex, hind⟩ := @listEntry_keeps fw extra length s (by omega) e
    obtain ⟨hservice, hcall⟩ := @ih (listEntry fw extra length s e) (by rw [hindex]; omega)
    rw [foldl_cons, hservice, hcall, hind, storeIndex_service (Nat.succ_ne_zero _), storeIndex_call (Nat.succ_ne_zero _),
      exists_mem_cons_iff, exists_mem_cons_iff]
    exact ⟨by rw [or_assoc, or_left_comm], by rw [or_assoc, or_left_comm]⟩

/-- An indicator that is stored as an extra one: it is taken for one of the configured names, and there is memory. -/
def IsExtra (fw : Firmware) (extra : Option (List Char)) (length : ℕ) (indicator : Option (List Char)) : Prop :=
  fw.realloc 1 = true ∧
    ∃ names ∈ extra, ∃ name ∈ configured names,
      fw.utilCompare indicator name (fw.utilFind '"' indicator length) = true

theorem handleExtra_eq_nil_iff {names : List Char} (hindex : s.index ≠ 0) :
    (hfpHandleExtraIndicatorsList fw names length s).extraIndicatorIdxs = [] ↔
      s.extraIndicatorIdxs = [] ∧ ¬ IsExtra fw (some names) length s.indicator := by
  have hfold : ∀ (l : List (List Char)) (s' : Scan),
      (l.foldl (fun s' name =>
        let cindIndex := if fw.utilCompare s.indicator name (fw.utilFind '"' s.indicator length) then s.index else 0
        if cindIndex ≠ 0 then hfpStoreUnhandledIndicator fw cindIndex s' else s') s').extraIndicatorIdxs = [] ↔
      s'.extraIndicatorIdxs = [] ∧ ∀ name ∈ l,
        ¬ (fw.utilCompare s.indicator name (fw.utilFind '"' s.indicator length) = true ∧ fw.realloc 1 = true) := by
    intro l
    induction l with
    | nil => simp
    | cons name l ih =>
      intro s'
      rw [foldl_cons, ih, forall_mem_cons, ← and_assoc]
      refine and_congr_left fun _ => ?_
      dsimp only
      by_cases hmatch : fw.utilCompare s.indicator name (fw.utilFind '"' s.indicator length) = true
      · rw [if_pos hmatch, if_pos hindex, hfpStoreUnhandledIndicator]
        constructor
        · intro h
          split at h
          · exact absurd h (by simp)
          · rename_i hmem
            rw [h] at hmem
            exact ⟨h, fun h => hmem h.2⟩
        · rintro ⟨hnil, hmem⟩
          have hno : ¬ fw.realloc (s'.extraIndicatorIdxs.length + 1) = true := by
            rw [hnil]
            exact fun h => hmem ⟨hmatch, h⟩
          rw [if_neg hno]
          exact hnil
      · rw [if_neg hmatch, if_neg (not_not.mpr rfl), and_iff_left fun h => hmatch h.1]
  refine (hfold (configured names) s).trans (and_congr_right fun _ => ?_)
  rw [IsExtra]
  constructor
  · rintro h ⟨hmem, names', hnames, name, hname, hmatch⟩
    rw [← Option.some.inj hnames] at hname
    exact h name hname ⟨hmatch, hmem⟩
  · rintro h name hname ⟨hmatch, hmem⟩
    exact h ⟨hmem, names, rfl, name, hname, hmatch⟩

/-- Extra indicators have been stored exactly if one is listed. -/
theorem foldl_extra (es : List (Option (List Char)))
    (hlt : s.index + es.length < 65536) : (es.foldl (listEntry fw extra length) s).extraIndicatorIdxs = [] ↔
      s.extraIndicatorIdxs = [] ∧ ∀ e ∈ es, ¬ IsExtra fw extra length e := by
  induction es generalizing s with
  | nil => simp
  | cons e es ih =>
    rw [length_cons] at hlt
    have hindex : (listEntry fw extra length s e).index = s.index + 1 := (listEntry_keeps (by omega) e).1
    rw [foldl_cons, ih (by rw [hindex]; omega), forall_mem_cons, ← and_assoc]
    refine and_congr_left fun _ => ?_
    cases extra with
    | none =>
      rw [listEntry_none (by omega)]
      exact (and_iff_left fun ⟨_, names, hnames, _⟩ => Option.not_mem_none names hnames).symm
    | some names =>
      rw [listEntry_some (by omega)]
      exact handleExtra_eq_nil_iff (Nat.succ_ne_zero _)

/-! ### What a response leaves -/

/-- The response names both service and call. -/
def NamesBoth (fw : Firmware) (str : List Char) : Prop :=
  (∃ e ∈ listed str, IsService fw e) ∧ ∃ e ∈ listed str, IsCall fw e

/-- One of the indicators of the response is stored as an extra one. -/
def NamesExtra (fw : Firmware) (extra : Option (List Char)) (str : List Char) : Prop :=
  ∃ e ∈ listed str, IsExtra fw extra str.length e

/-- A table as a response leaves it. -/
structure Handled (fw : Firmware) (extra : Option (List Char)) (str : List Char) (t t' : IndicatorIndexes) : Prop where
  count : t'.numIndicators = (listed str).length
  kept : ¬ NamesBoth fw str → t'.indicatorIdxs = t.indicatorIdxs
  replaced : NamesBoth fw str → ∀ i ∈ t'.indicatorIdxs.toList, i ≤ t'.numIndicators
  extra_le : ∀ i ∈ t'.extraIndicatorIdxs, i ≤ t'.numIndicators
  extra_iff : t'.extraIndicatorIdxs = [] ↔ ¬ NamesExtra fw extra str
  room : t'.extraIndicatorIdxs ≠ [] → t'.room = t'.extraIndicatorIdxs.length

theorem handled (extra : Option (List Char)) {str : List Char} (h : str.length < 65536) (t : IndicatorIndexes) :
    ∃ t', hfpHandleIndicatorList fw extra str t = .ok t' ∧ Handled fw extra str t t' := by
  have hcount := length_listed h
  have hstart : Listing ⟨hfpSkipSpace (some str), 0, noIndicators, [], t.room⟩ :=
    ⟨by simp [noIndicators, Bia.Indicators.toList], by simp, by simp⟩
  obtain ⟨hlisting, hindex⟩ := @Listing.foldl fw extra str.length _ hstart (listed str) (by dsimp only; omega)
  obtain ⟨hservice, hcall⟩ := @foldl_names fw extra str.length
    ⟨hfpSkipSpace (some str), 0, noIndicators, [], t.room⟩ (listed str) (by dsimp only; omega)
  have hextra := @foldl_extra fw extra str.length
    ⟨hfpSkipSpace (some str), 0, noIndicators, [], t.room⟩ (listed str) (by dsimp only; omega)
  have hboth : (scan fw extra str t.room).indIndexes.service ≠ 0 ∧ (scan fw extra str t.room).indIndexes.call ≠ 0 ↔
      NamesBoth fw str := by
    rw [NamesBoth]
    exact and_congr (hservice.trans (or_iff_left fun h => h rfl)) (hcall.trans (or_iff_left fun h => h rfl))
  refine ⟨_, hfpHandleIndicatorList_eq extra str t, ⟨hindex.trans (Nat.zero_add _), fun hnot => ?_, fun hnames => ?_,
    hlisting.extra_le, ?_, hlisting.room⟩⟩
  · exact if_neg fun h => hnot (hboth.mp h)
  · dsimp only
    rw [if_pos (hboth.mpr hnames)]
    exact hlisting.idx_le
  · refine hextra.trans ?_
    rw [NamesExtra]
    simp

/-! ### The command -/

/-- Every stored position is at most the number of indicators. -/
def Stored (t : IndicatorIndexes) : Prop := ∀ i ∈ t.indicatorIdxs.toList ++ t.extraIndicatorIdxs, i ≤ t.numIndicators

variable {t : IndicatorIndexes} {o : OptionalIndicators} {u : ℕ × IndicatorStatus}

theorem mem_updates (h : u ∈ updates t o) :
    u.1 ∈ t.indicatorIdxs.toList ++ t.extraIndicatorIdxs := by
  rw [updates, mem_append] at h
  rcases h with h | h
  · refine mem_append_left _ ?_
    simp only [mem_cons, not_mem_nil, or_false] at h
    rcases h with rfl | rfl | rfl | rfl | rfl | rfl | rfl | rfl <;> simp [Bia.Indicators.toList]
  · obtain ⟨i, hi, rfl⟩ := mem_map.mp h
    exact mem_append_right _ hi

/-- The buffer, before the updates. -/
theorem fill_buffer {n : ℕ} (h : n ≤ 16384) :
    Bia.atCmd ++ Bia.fill (Bia.sizeBia n) (Bia.sizeBia n) Bia.atCmd.length ++ Bia.atEnd =
      Bia.buffer (List.replicate n '0') := by
  have hsize := Bia.sizeBia_eq h
  have hlen : Bia.atCmd.length + 2 * n + 3 = Bia.sizeBia n := by
    rw [hsize]
    change 7 + 2 * n + 3 = _
    omega
  rw [Bia.buffer, Bia.fill_eq hlen (by omega)]

/-- No octet is written behind the buffer if every position is one of an indicator. -/
theorem not_beyond (hnum : t.numIndicators ≤ 16384) (h : Stored t) (isHfp106 : Bool)
    (o : OptionalIndicators) : hfpHandleSetActiveIndicatorsReq fw isHfp106 o t ≠ .beyond := by
  have hsize := Bia.sizeBia_eq hnum
  have hroom : ¬ Bia.sizeBia t.numIndicators < Bia.atCmd.length + Bia.atEnd.length := by
    rw [hsize]
    change ¬ _ < 7 + 3
    omega
  have hend : ∀ vs, '\x00' ∈ Bia.buffer vs := fun vs => by simp [Bia.buffer, Bia.atEnd]
  have hvalues : (List.replicate t.numIndicators '0').length = t.numIndicators := length_replicate
  have hupdates : (updates t o).foldlM (Bia.hfpUpdateIndicatorsCommand Bia.atCmd.length)
      (Bia.buffer (List.replicate t.numIndicators '0')) = some _ :=
    Bia.updates_eq (hvalues.trans_le hnum) fun u hu => (h _ (mem_updates hu)).trans_eq hvalues.symm
  rw [hfpHandleSetActiveIndicatorsReq]
  split
  · rw [fill_buffer hnum, hupdates]
    dsimp only
    rw [if_pos (hend _)]
    simp
  · simp

/-- Values with commas between them. -/
def joined (values : List Char) : List Char := [','].intercalate (values.map fun v => [v])

/-- The command lists exactly as many values as there are indicators, the requested one at each stored position. -/
def ListsValues (text : List Char) (t : IndicatorIndexes) (o : OptionalIndicators) : Prop :=
  ∃ values : List Char, values.length = t.numIndicators ∧ text = Bia.atCmd ++ joined values ++ ['\r'] ∧
    ∀ u ∈ updates t o, u.1 ≠ 0 → values[u.1 - 1]? = some (Bia.statusChar u.2)

theorem length_joined (values : List Char) : (joined values).length = 2 * values.length - 1 := by
  induction values with
  | nil => rfl
  | cons v values ih =>
    cases values with
    | nil => rfl
    | cons w values =>
      have hcons : joined (v :: w :: values) = v :: ',' :: joined (w :: values) := by
        simp [joined, List.intercalate]
      rw [hcons, length_cons, length_cons, ih]
      simp only [length_cons]
      omega

variable {bia bia' : List Char}

/-- An update leaves the length of the buffer, and no octet of it becomes zero. -/
theorem update_keeps {start : ℕ}
    (h : Bia.hfpUpdateIndicatorsCommand start bia u = some bia') :
    bia'.length = bia.length ∧ ∀ (i : ℕ) (c : Char), bia'[i]? = some c → c = '\x00' → bia[i]? = some c := by
  obtain ⟨idx, status⟩ := u
  rw [Bia.hfpUpdateIndicatorsCommand] at h
  split at h
  · rename_i hset
    dsimp only at h
    split at h
    · rw [← Option.some.inj h]
      refine ⟨length_set, fun i c hc hzero => ?_⟩
      rw [List.getElem?_set] at hc
      split at hc
      · have hchar : Bia.statusChar status = '\x00' := (Option.some.inj hc).trans hzero
        cases status <;> exact absurd hchar (by decide)
      · exact hc
    · cases h
  · rw [← Option.some.inj h]
    exact ⟨rfl, fun i c hc _ => hc⟩

theorem updates_keep {start : ℕ} {us : List (ℕ × IndicatorStatus)}
    (h : us.foldlM (Bia.hfpUpdateIndicatorsCommand start) bia = some bia') :
    bia'.length = bia.length ∧ ∀ (i : ℕ) (c : Char), bia'[i]? = some c → c = '\x00' → bia[i]? = some c := by
  induction us generalizing bia with
  | nil =>
    rw [← Option.some.inj h]
    exact ⟨rfl, fun i c hc _ => hc⟩
  | cons u us ih =>
    rw [foldlM_cons] at h
    obtain ⟨mid, hmid, hrest⟩ := Option.bind_eq_some_iff.mp h
    obtain ⟨hlen, hzero⟩ := update_keeps hmid
    obtain ⟨hlen', hzero'⟩ := ih hrest
    exact ⟨hlen'.trans hlen, fun i c hc h0 => hzero i c (hzero' i c hc h0) h0⟩

/-- In the buffer, only the last octet is zero. -/
theorem buffer_zero {n i : ℕ} (h : (Bia.buffer (List.replicate n '0'))[i]? = some '\x00') : i = 2 * n + 9 := by
  have hvalues : (List.replicate n '0').length = n := length_replicate
  have hi := (List.getElem?_eq_some_iff.mp h).1
  rw [Bia.length_buffer, hvalues] at hi
  by_contra hne
  have hfront : i < (Bia.atCmd ++ Bia.render (List.replicate n '0') ++ ['0', '\r']).length := by
    rw [length_append, length_append, Bia.length_render, hvalues]
    change i < 7 + 2 * n + 2
    omega
  have hbuffer : Bia.buffer (List.replicate n '0') =
      (Bia.atCmd ++ Bia.render (List.replicate n '0') ++ ['0', '\r']) ++ ['\x00'] := by
    rw [Bia.buffer, append_assoc _ ['0', '\r']]
    rfl
  rw [hbuffer, List.getElem?_append_left hfront] at h
  have hmem := mem_of_getElem? h
  rw [append_assoc, mem_append, mem_append] at hmem
  rcases hmem with hmem | hmem | hmem
  · exact absurd hmem (by decide)
  · obtain ⟨v, hv, hmem⟩ := mem_flatMap.mp hmem
    rw [eq_of_mem_replicate hv] at hmem
    exact absurd hmem (by decide)
  · exact absurd hmem (by decide)

/-- The octets in front of the first one that fails, if that is at `n`. -/
theorem length_takeWhile_eq {p : Char → Bool} {l : List Char} {n : ℕ} (hn : l.length = n + 1)
    (hall : ∀ i c, l[i]? = some c → p c = false → i = n) (hlast : ∃ c, l[n]? = some c ∧ p c = false) :
    (l.takeWhile p).length = n := by
  induction l generalizing n with
  | nil => cases hn
  | cons d l ih =>
    by_cases hd : p d = true
    · rw [takeWhile_cons_of_pos hd, length_cons]
      obtain ⟨c, hc, hpc⟩ := hlast
      cases n with
      | zero =>
        rw [← Option.some.inj hc, hd] at hpc
        cases hpc
      | succ n =>
        rw [ih (Nat.succ.inj hn) (fun i c hi hp => Nat.succ.inj (hall (i + 1) c hi hp)) ⟨c, hc, hpc⟩]
    · rw [takeWhile_cons_of_neg hd]
      exact hall 0 d rfl (Bool.not_eq_true _ ▸ hd)

/-- The command has one value too many. -/
theorem length_sent (hnum : t.numIndicators ≤ 16384) {isHfp106 : Bool}
    {text : List Char} (h : hfpHandleSetActiveIndicatorsReq fw isHfp106 o t = .sent text) :
    text.length = 2 * t.numIndicators + 9 := by
  have hsize := Bia.sizeBia_eq hnum
  have hvalues : (List.replicate t.numIndicators '0').length = t.numIndicators := length_replicate
  have hroom : ¬ Bia.sizeBia t.numIndicators < Bia.atCmd.length + Bia.atEnd.length := by
    rw [hsize]
    change ¬ _ < 7 + 3
    omega
  rw [hfpHandleSetActiveIndicatorsReq] at h
  split at h
  · rw [fill_buffer hnum] at h
    cases hfold : (updates t o).foldlM (Bia.hfpUpdateIndicatorsCommand Bia.atCmd.length)
        (Bia.buffer (List.replicate t.numIndicators '0')) with
    | none =>
      rw [hfold] at h
      cases h
    | some bia =>
      rw [hfold] at h
      dsimp only at h
      split at h
      · rename_i hzero
        obtain ⟨hlen, hkeep⟩ := updates_keep hfold
        rw [Bia.length_buffer, hvalues] at hlen
        rw [← Built.sent.inj h]
        obtain ⟨i, hi⟩ := mem_iff_getElem?.mp hzero
        have hlast := buffer_zero (hkeep i _ hi rfl)
        refine length_takeWhile_eq hlen (fun j c hj hc => ?_) ⟨'\x00', hlast ▸ hi, by decide⟩
        have hc' : c = '\x00' := by simpa using hc
        exact buffer_zero (hc' ▸ hkeep j c hj hc')
      · cases h
  · cases h

/-- So it does not list as many values as there are indicators. -/
theorem not_listsValues (hnum : t.numIndicators ≤ 16384) {isHfp106 : Bool}
    {text : List Char} (h : hfpHandleSetActiveIndicatorsReq fw isHfp106 o t = .sent text) :
    ¬ ListsValues text t o := by
  rintro ⟨values, hcount, htext, -⟩
  have hlen := length_sent hnum h
  rw [htext, length_append, length_append, length_joined, hcount] at hlen
  change 7 + (2 * t.numIndicators - 1) + 1 = _ at hlen
  omega

/-! ### Runs -/

/-- What a request comes to: no octet behind the buffer, and a command that lists the values. -/
def Answered (fw : Firmware) (s : Link) : Prop :=
  match hfpHandleSetActiveIndicatorsReq fw s.isHfp106 s.optional s.t with
  | .skipped => True
  | .beyond => False
  | .sent text => ListsValues text s.t s.optional

/-- **In the buffer**: in every state of a run, every stored position is at most the number of indicators, and no request
goes beyond its buffer. -/
def InBuffer (s : Link) (events : List Event) : Prop :=
  ∀ front, front <+: events → ∀ s', Lib.run step s front = some s' →
    Stored s'.t ∧ ∀ fw, hfpHandleSetActiveIndicatorsReq fw s'.isHfp106 s'.optional s'.t ≠ .beyond

/-- **The commands**: every request of a run lists exactly as many values as there are indicators. -/
def ListsAll (s : Link) (events : List Event) : Prop :=
  RunMeets step (fun s e => ∀ fw, e = .request fw → Answered fw s) s events

/-- **The storage**: in every state of a run, the array has room for two octets for each entry. -/
def Stores (s : Link) (events : List Event) : Prop :=
  ∀ front, front <+: events → ∀ s', Lib.run step s front = some s' → 2 * s'.t.extraIndicatorIdxs.length ≤ s'.t.room

/-- A response that replaces the table, or covers what is in it. -/
def Covers (s : Link) : Event → Prop
  | .list fw str _ => NamesBoth fw str ∨ ∀ i ∈ s.t.indicatorIdxs.toList, i ≤ (listed str).length
  | .request _ => True

/-- No command is built: the link does not know it, or there is no memory. -/
def Unbuilt (s : Link) : Event → Prop
  | .list _ _ _ => True
  | .request fw => ¬ (s.isHfp106 = true ∧ fw.malloc (Bia.sizeBia s.t.numIndicators) = true)

/-- A response in which no indicator is stored as an extra one. -/
def Plain (s : Link) : Event → Prop
  | .list fw str _ => ¬ NamesExtra fw s.extra str
  | .request _ => True

/-- What every list keeps. -/
structure Sound (s : Link) : Prop where
  count : s.t.numIndicators ≤ 16384
  extra_le : ∀ i ∈ s.t.extraIndicatorIdxs, i ≤ s.t.numIndicators
  room : s.t.extraIndicatorIdxs ≠ [] → s.t.room = s.t.extraIndicatorIdxs.length

theorem sound_init (isHfp106 : Bool) (extra : Option (List Char)) (optional : OptionalIndicators) :
    Sound (init isHfp106 extra optional) :=
  ⟨Nat.zero_le _, fun _ h => (not_mem_nil h).elim, fun h => absurd rfl h⟩

theorem step_list {s s' : Link} {fw : Firmware} {h : str.length < 65536}
    (hs : step s (.list fw str h) = some s') : ∃ t', s' = { s with t := t' } ∧ Handled fw s.extra str s.t t' := by
  obtain ⟨t', ht', hhandled⟩ := @handled fw s.extra _ h s.t
  rw [step, ht'] at hs
  exact ⟨t', (Option.some.inj hs).symm, hhandled⟩

theorem step_ne_none (s : Link) (e : Event) : step s e ≠ none := by
  cases e with
  | list fw str h =>
    obtain ⟨t', ht', -⟩ := @handled fw s.extra _ h s.t
    rw [step, ht']
    exact Option.some_ne_none _
  | request fw => exact Option.some_ne_none _

theorem Sound.step {s s' : Link} {e : Event} (h : Sound s) (hs : step s e = some s') : Sound s' := by
  cases e with
  | list fw str hstr =>
    obtain ⟨t', rfl, hhandled⟩ := step_list hs
    exact ⟨hhandled.count ▸ length_listed hstr, hhandled.extra_le, hhandled.room⟩
  | request fw =>
    obtain rfl : s = s' := Option.some.inj hs
    exact h

theorem inBuffer_iff {s : Link} (h : Sound s) (hstored : Stored s.t) (events : List Event) :
    InBuffer s events ↔ RunMeets step Covers s events := by
  have hsafe : ∀ {s : Link}, Sound s → ((Stored s.t ∧
      ∀ fw, hfpHandleSetActiveIndicatorsReq fw s.isHfp106 s.optional s.t ≠ .beyond) ↔ Stored s.t) := by
    intro s h
    exact and_iff_left_of_imp fun hstored fw => not_beyond h.count hstored _ _
  refine runMeets_iff (I := Sound) (P := fun s => Stored s.t ∧ _) (fun s e s' hs hp hstep => ?_)
    (fun s e hnone => absurd hnone (step_ne_none s e)) events h ((hsafe h).mpr hstored)
  have hs' := hs.step hstep
  refine ⟨hs', (hsafe hs').trans ?_⟩
  cases e with
  | list fw str hstr =>
    obtain ⟨t', rfl, hhandled⟩ := step_list hstep
    rw [Covers, ← hhandled.count]
    by_cases hboth : NamesBoth fw str
    · refine iff_of_true (fun i hi => ?_) (.inl hboth)
      rcases mem_append.mp hi with hi | hi
      · exact hhandled.replaced hboth i hi
      · exact hhandled.extra_le i hi
    · rw [or_iff_right hboth, Stored]
      dsimp only
      rw [hhandled.kept hboth]
      constructor
      · intro hall i hi
        exact hall i (mem_append_left _ hi)
      · intro hall i hi
        rcases mem_append.mp hi with hi | hi
        · exact hall i hi
        · exact hhandled.extra_le i hi
  | request fw =>
    obtain rfl : s = s' := Option.some.inj hstep
    exact iff_of_true hp.1 trivial

theorem lists_iff {s : Link} (h : Sound s) (events : List Event) :
    ListsAll s events ↔ RunMeets step Unbuilt s events := by
  constructor
  · intro hall
    refine hall.imp (I := Sound) (fun s e s' hs hstep => hs.step hstep) (fun s e hs hok => ?_) h
    cases e with
    | list fw str hstr => trivial
    | request fw =>
      rintro hbuilt
      have hanswered := hok fw rfl
      rw [Answered] at hanswered
      split at hanswered
      · next hskipped =>
        rw [hfpHandleSetActiveIndicatorsReq] at hskipped
        rw [if_pos hbuilt] at hskipped
        split at hskipped
        · cases hskipped
        · split at hskipped
          · cases hskipped
          · split at hskipped <;> cases hskipped
      · exact hanswered
      · next text hsent => exact not_listsValues hs.count hsent hanswered
  · intro hall
    refine hall.mono fun s e hok fw he => ?_
    subst he
    rw [Answered, hfpHandleSetActiveIndicatorsReq]
    rw [if_neg hok]
    trivial

theorem stores_iff {s : Link} (h : Sound s) (hstored : 2 * s.t.extraIndicatorIdxs.length ≤ s.t.room)
    (events : List Event) : Stores s events ↔ RunMeets step Plain s events := by
  refine runMeets_iff (I := Sound) (P := fun s => 2 * s.t.extraIndicatorIdxs.length ≤ s.t.room)
    (fun s e s' hs hp hstep => ?_) (fun s e hnone => absurd hnone (step_ne_none s e)) events h hstored
  refine ⟨hs.step hstep, ?_⟩
  cases e with
  | list fw str hstr =>
    obtain ⟨t', rfl, hhandled⟩ := step_list hstep
    rw [Plain, ← hhandled.extra_iff]
    constructor
    · intro hroom
      by_contra hne
      have hpos := length_pos_iff.mpr hne
      have hroom' := hhandled.room hne
      dsimp only at hroom
      omega
    · intro hnil
      dsimp only
      rw [hnil]
      exact Nat.zero_le _
  | request fw =>
    obtain rfl : s = s' := Option.some.inj hstep
    exact iff_of_true hp trivial

/-- On every link, over every list of events: the table stays in the buffer exactly if every response names service and
call or covers what is stored; the commands list the values exactly if none is built; the storage is large enough exactly
if no extra indicator is stored. -/
theorem indicators_iff (isHfp106 : Bool) (extra : Option (List Char)) (optional : OptionalIndicators)
    (events : List Event) :
    (InBuffer (init isHfp106 extra optional) events ↔
      Lib.RunMeets step Covers (init isHfp106 extra optional) events) ∧
    (ListsAll (init isHfp106 extra optional) events ↔
      Lib.RunMeets step Unbuilt (init isHfp106 extra optional) events) ∧
    (Stores (init isHfp106 extra optional) events ↔
      Lib.RunMeets step Plain (init isHfp106 extra optional) events) := by
  have hsound := sound_init isHfp106 extra optional
  refine ⟨inBuffer_iff hsound ?_ events, lists_iff hsound events, stores_iff hsound (Nat.zero_le _) events⟩
  intro i hi
  have hzero : ∀ i ∈ (init isHfp106 extra optional).t.indicatorIdxs.toList ++
      (init isHfp106 extra optional).t.extraIndicatorIdxs, i = 0 := by
    simp [init, noIndicators, Bia.Indicators.toList]
  exact (hzero i hi).trans_le (Nat.zero_le _)

/-- Octets are compared, and there is memory. -/
def documented : Firmware where
  utilCompare a b size := match a with
    | some l => decide (l.take size = b.take size)
    | none => false
  utilFind c a count := match a with
    | some l => ((l.take count).takeWhile (· ≠ c)).length
    | none => 0
  realloc _ := true
  malloc _ := true

/-- The application chooses service only. -/
def serviceOnly : OptionalIndicators := ⟨.on, .off, .off, .off⟩

/-- A list of service and call is followed by one of signal only: call keeps position 2 in a table of one. A link without
indicators is sent one value. An extra indicator is stored in one octet. -/
theorem not_indicators :
    ¬ InBuffer (init true none serviceOnly)
      [.list documented "(\"service\",(0-1)),(\"call\",(0-1))".toList (by decide),
        .list documented "(\"signal\",(0-5))".toList (by decide)] ∧
    ¬ ListsAll (init true none serviceOnly) [.request documented] ∧
    ¬ Stores (init true (some "roam".toList) serviceOnly) [.list documented "(\"roam\",(0-1))".toList (by decide)] := by
  refine ⟨fun h => ?_, fun h => ?_, fun h => ?_⟩
  · have hruns : (Lib.run step (init true none serviceOnly)
        [.list documented "(\"service\",(0-1)),(\"call\",(0-1))".toList (by decide),
          .list documented "(\"signal\",(0-5))".toList (by decide)]).any fun s =>
        decide (s.t.numIndicators < s.t.indicatorIdxs.call) := by decide
    obtain ⟨s, hs, hlt⟩ := (Option.any_eq_true _ _).mp hruns
    have hcall := (h _ prefix_rfl s hs).1 s.t.indicatorIdxs.call (by simp [Bia.Indicators.toList])
    exact absurd hcall (Nat.not_le.mpr (of_decide_eq_true hlt))
  · have hanswered := h.head documented rfl
    have hsent : hfpHandleSetActiveIndicatorsReq documented true serviceOnly (init true none serviceOnly).t =
        .sent (Bia.atCmd ++ ['0', '\r']) := by decide
    rw [Answered] at hanswered
    split at hanswered
    · next hskipped => cases hsent.symm.trans hskipped
    · exact hanswered
    · next text htext => exact not_listsValues (Nat.zero_le _) htext hanswered
  · have hruns : (Lib.run step (init true (some "roam".toList) serviceOnly)
        [.list documented "(\"roam\",(0-1))".toList (by decide)]).any fun s =>
        decide (s.t.room < 2 * s.t.extraIndicatorIdxs.length) := by decide
    obtain ⟨s, hs, hlt⟩ := (Option.any_eq_true _ _).mp hruns
    exact absurd (h _ prefix_rfl s hs) (Nat.not_le.mpr (of_decide_eq_true hlt))

end Cbps.Hfp.IndicatorList
