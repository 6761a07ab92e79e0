import Mathlib.Data.List.Basic
import Mathlib.Data.List.TakeWhile
import Mathlib.Data.Nat.Basic

/-!
# The indicators that are active

`hfp_indicators_handler.c` and `aghfp_parse_handler.c`: the hands-free side says by `AT+BIA` which of the indicators
of the audio gateway are to be active, and the audio gateway takes the values out of the text by their positions.

`activated_iff`: the values arrive as they were chosen, unless the position after the last indicator is one that the
audio gateway has, since the text has one value too many. `parsesSafely`: whatever the text is, nothing else is read
and no other position is written.
-/

namespace Cbps.Hfp.Bia

open List

/-- `hfp_indicator_status`, `indicator_status`. -/
inductive IndicatorStatus
  | off
  | on
  | ignore
  deriving DecidableEq, Repr

/-! ### The hands-free side -/

/-- `hfp_indicators`: the positions of the indicators, from one; zero is that of one that is missing. -/
structure Indicators where
  service : ℕ
  call : ℕ
  callSetup : ℕ
  extraCallSetup : ℕ
  signalStrength : ℕ
  roamingStatus : ℕ
  batteryCharge : ℕ
  callHoldStatus : ℕ
  deriving DecidableEq, Repr

def Indicators.toList (ind : Indicators) : List ℕ :=
  [ind.service, ind.signalStrength, ind.roamingStatus, ind.batteryCharge, ind.call, ind.callSetup,
    ind.callHoldStatus, ind.extraCallSetup]

/-- `hfp_optional_indicators`. -/
structure OptionalIndicators where
  service : IndicatorStatus
  signalStrength : IndicatorStatus
  roamingStatus : IndicatorStatus
  batteryCharge : IndicatorStatus
  deriving DecidableEq, Repr

/-- `hfp_indicator_indexes`, filled in from a list of indicators. Every indicator of the list takes at least four of
its octets, which are counted in sixteen bits. -/
structure IndicatorIndexes where
  indicatorIdxs : Indicators
  extraIndicatorIdxs : List ℕ
  numIndicators : ℕ
  num_le : numIndicators ≤ 16384
  idx_le : ∀ i ∈ indicatorIdxs.toList ++ extraIndicatorIdxs, i ≤ numIndicators
  nodup : (indicatorIdxs.toList.filter (· ≠ 0)).Nodup

def atCmd : List Char := ['A', 'T', '+', 'B', 'I', 'A', '=']

def atCmdSeparator : List Char := ['0', ',']

def atEnd : List Char := ['0', '\r', '\x00']

/-- `size_bia`, of sixteen bits. -/
def sizeBia (numIndicators : ℕ) : ℕ :=
  (atCmd.length + numIndicators * atCmdSeparator.length + atEnd.length) % 65536

/-- The default values, written from `p` on as long as `p` is before the room for `atEnd`. -/
def fill (size : ℕ) : ℕ → ℕ → List Char
  | 0, _ => []
  | fuel + 1, p =>
    if p + atEnd.length < size then atCmdSeparator ++ fill size fuel (p + atCmdSeparator.length) else []

/-- The character of a status. -/
def statusChar : IndicatorStatus → Char
  | .off => '0'
  | .on => '1'
  | .ignore => ' '

/-- `hfpUpdateIndicatorsCommand`, at `start` in the buffer; `none` says that it writes beyond the buffer. -/
def hfpUpdateIndicatorsCommand (start : ℕ) (bia : List Char) (update : ℕ × IndicatorStatus) : Option (List Char) :=
  let (idx, status) := update
  if idx ≠ 0 ∧ status ≠ .off then
    let charIdx := (idx - 1) * 2 % 65536
    if start + charIdx < bia.length then some (bia.set (start + charIdx) (statusChar status)) else none
  else some bia

/-- The updates, in their order: what the application has chosen, then the indicators that are always on. -/
def updates (t : IndicatorIndexes) (o : OptionalIndicators) : List (ℕ × IndicatorStatus) :=
  [(t.indicatorIdxs.service, o.service), (t.indicatorIdxs.signalStrength, o.signalStrength),
    (t.indicatorIdxs.roamingStatus, o.roamingStatus), (t.indicatorIdxs.batteryCharge, o.batteryCharge),
    (t.indicatorIdxs.call, .on), (t.indicatorIdxs.callSetup, .on), (t.indicatorIdxs.callHoldStatus, .on),
    (t.indicatorIdxs.extraCallSetup, .on)] ++ t.extraIndicatorIdxs.map fun i => (i, .on)

/-- `hfpHandleSetActiveIndicatorsReq` of a link of HFP 1.06: the command that is sent. -/
def hfpHandleSetActiveIndicatorsReq (t : IndicatorIndexes) (o : OptionalIndicators) : Option (List Char) :=
  let size := sizeBia t.numIndicators
  if size < atCmd.length + atEnd.length then none
  else
    ((updates t o).foldlM (hfpUpdateIndicatorsCommand atCmd.length)
      (atCmd ++ fill size size atCmd.length ++ atEnd)).map (List.takeWhile (· ≠ '\x00'))

/-! ### The audio gateway -/

/-- `struct sequence`: `data` is the memory from the start of the text on. -/
structure Sequence where
  data : ℕ → Char
  length : ℕ

/-- `AGHFP_INTERNAL_INDICATORS_ACTIVATION_REQ_T`, with the positions for which a value has been taken. -/
structure IndicatorsActivation where
  service : IndicatorStatus
  signal : IndicatorStatus
  roam : IndicatorStatus
  battchg : IndicatorStatus
  written : List ℕ
  deriving DecidableEq, Repr

namespace IndicatorsActivation

/-- The value at a position. The indicators of calls are always on. -/
def write (m : IndicatorsActivation) (indicatorIdx : ℕ) (status : IndicatorStatus) : IndicatorsActivation :=
  let m := { m with written := indicatorIdx :: m.written }
  match indicatorIdx with
  | 0 => { m with service := status }
  | 4 => { m with signal := status }
  | 5 => { m with roam := status }
  | 6 => { m with battchg := status }
  | _ => m

/-- Nothing is updated. -/
def unchanged : IndicatorsActivation := ⟨.ignore, .ignore, .ignore, .ignore, []⟩

/-- What a message says of a position. -/
def get (m : IndicatorsActivation) : ℕ → IndicatorStatus
  | 0 => m.service
  | 4 => m.signal
  | 5 => m.roam
  | 6 => m.battchg
  | _ => .ignore

end IndicatorsActivation

/-- The loop of `aghfpHandleBiaParse`, with `n` characters to read from the `i`-th on. -/
def biaLoop (data : ℕ → Char) : ℕ → ℕ → ℕ → IndicatorsActivation → Option IndicatorsActivation
  | 0, _, _, m => some m
  | n + 1, i, indicatorIdx, m =>
    if data i = ',' ∨ data i = ';' then
      if 6 < indicatorIdx + 1 then some m else biaLoop data n (i + 1) (indicatorIdx + 1) m
    else if data i = ' ' ∨ data i = '\t' then biaLoop data n (i + 1) indicatorIdx m
    else if data i = '0' ∨ data i = '1' then
      biaLoop data n (i + 1) indicatorIdx (m.write indicatorIdx (if data i = '1' then .on else .off))
    else none

/-- `aghfpHandleBiaParse`; `none` is the answer `ERROR`. -/
def aghfpHandleBiaParse (indicators : Sequence) : Option IndicatorsActivation :=
  biaLoop indicators.data indicators.length 0 0 .unchanged

/-- The parser's rule `AT + BIA = %*:indicators \r`. -/
def matchBia (text : List Char) : Option Sequence :=
  if atCmd <+: text then
    let rest := (text.drop atCmd.length).dropWhile fun c => c = ' ' ∨ c = '\t'
    let indicators := rest.takeWhile (· ≠ '\r')
    if '\r' ∈ rest then some ⟨fun i => indicators.getD i '\r', indicators.length⟩ else none
  else none

/-! ### What should arrive -/

/-- The indicators that are always on. -/
def mandatory (t : IndicatorIndexes) : List ℕ :=
  [t.indicatorIdxs.call, t.indicatorIdxs.callSetup, t.indicatorIdxs.callHoldStatus, t.indicatorIdxs.extraCallSetup] ++
    t.extraIndicatorIdxs

/-- The choice for the indicator at a position, from one. An indicator that is not known is off. -/
def choice (t : IndicatorIndexes) (o : OptionalIndicators) (position : ℕ) : IndicatorStatus :=
  if position ∈ mandatory t then .on
  else if position = t.indicatorIdxs.service then o.service
  else if position = t.indicatorIdxs.signalStrength then o.signalStrength
  else if position = t.indicatorIdxs.roamingStatus then o.roamingStatus
  else if position = t.indicatorIdxs.batteryCharge then o.batteryCharge
  else .off

/-- The positions, from zero, of the indicators that the audio gateway can switch. -/
def agPositions : List ℕ := [0, 4, 5, 6]

/-- The command that is sent is taken for what has been chosen, and what it does not speak of is left as it is. -/
def Activated (t : IndicatorIndexes) (o : OptionalIndicators) : Prop :=
  ∃ text indicators m, hfpHandleSetActiveIndicatorsReq t o = some text ∧ matchBia text = some indicators ∧
    aghfpHandleBiaParse indicators = some m ∧
    ∀ p ∈ agPositions, m.get p = if p < t.numIndicators then choice t o (p + 1) else .ignore

/-- Only the text is read, and only positions that the audio gateway has are written. -/
def ParsesSafely : Prop :=
  (∀ data data' length, (∀ i < length, data i = data' i) →
    aghfpHandleBiaParse ⟨data, length⟩ = aghfpHandleBiaParse ⟨data', length⟩) ∧
  ∀ indicators m, aghfpHandleBiaParse indicators = some m → ∀ p ∈ m.written, p ≤ 6

/-! ### The text that is built -/

/-- The values with a separator after each. -/
def render (vs : List Char) : List Char := vs.flatMap fun v => [v, ',']

/-- The buffer with the values. -/
def buffer (vs : List Char) : List Char := atCmd ++ render vs ++ atEnd

@[simp] theorem render_nil : render [] = [] := rfl

@[simp] theorem render_cons (v : Char) (vs : List Char) : render (v :: vs) = v :: ',' :: render vs := rfl

@[simp] theorem length_render (vs : List Char) : (render vs).length = 2 * vs.length := by
  induction vs with
  | nil => rfl
  | cons v vs ih =>
    rw [render_cons, length_cons, length_cons, ih, length_cons]
    omega

theorem length_buffer (vs : List Char) : (buffer vs).length = 2 * vs.length + 10 := by
  rw [buffer, length_append, length_append, length_render]
  change 7 + 2 * vs.length + 3 = _
  omega

theorem sizeBia_eq {n : ℕ} (h : n ≤ 16384) : sizeBia n = 2 * n + 10 := by
  change (7 + n * 2 + 3) % 65536 = _
  omega

/-- The loop leaves room for the end. -/
theorem fill_eq {size fuel p k : ℕ} (hp : p + 2 * k + 3 = size) (hfuel : k < fuel) :
    fill size fuel p = render (List.replicate k '0') := by
  induction k generalizing fuel p with
  | zero =>
    cases fuel with
    | zero => rfl
    | succ fuel =>
      have hsize : ¬p + atEnd.length < size := by
        change ¬p + 3 < size
        omega
      rw [fill, if_neg hsize]
      rfl
  | succ k ih =>
    obtain ⟨fuel, rfl⟩ : ∃ f, fuel = f + 1 := ⟨fuel - 1, by omega⟩
    have hsize : p + atEnd.length < size := by
      change p + 3 < size
      omega
    rw [fill, if_pos hsize, ih (p := p + atCmdSeparator.length) (by change p + 2 + 2 * k + 3 = size; omega)
      (by omega)]
    rfl

theorem render_set (vs : List Char) (k : ℕ) (c : Char) : (render vs).set (2 * k) c = render (vs.set k c) := by
  induction vs generalizing k with
  | nil => rfl
  | cons v vs ih =>
    cases k with
    | zero => rfl
    | succ k =>
      rw [render_cons, set_cons_succ, render_cons, show 2 * (k + 1) = 2 * k + 1 + 1 by omega,
        set_cons_succ, set_cons_succ, ih]

variable {vs : List Char}

/-- A value is replaced in the buffer. -/
theorem buffer_set {k : ℕ} (hk : k < vs.length) (c : Char) :
    (buffer vs).set (7 + 2 * k) c = buffer (vs.set k c) := by
  rw [buffer, buffer, append_assoc, append_assoc, set_append_right _ _ (by change 7 ≤ _; omega)]
  change _ ++ (render vs ++ atEnd).set (7 + 2 * k - 7) c = _
  rw [Nat.add_sub_cancel_left, set_append_left _ _ (by rw [length_render]; omega), render_set]

/-- The values after an update. -/
def setStatus (vs : List Char) (update : ℕ × IndicatorStatus) : List Char :=
  if update.1 ≠ 0 ∧ update.2 ≠ .off then vs.set (update.1 - 1) (statusChar update.2) else vs

theorem length_setStatus (vs : List Char) (update : ℕ × IndicatorStatus) :
    (setStatus vs update).length = vs.length := by
  rw [setStatus]
  split
  · exact length_set
  · rfl

theorem update_eq {update : ℕ × IndicatorStatus} (hvs : vs.length ≤ 16384)
    (hidx : update.1 ≤ vs.length) :
    hfpUpdateIndicatorsCommand 7 (buffer vs) update = some (buffer (setStatus vs update)) := by
  obtain ⟨idx, status⟩ := update
  rw [hfpUpdateIndicatorsCommand, setStatus]
  dsimp only at hidx ⊢
  split
  · rename_i hset
    have hchar : (idx - 1) * 2 % 65536 = 2 * (idx - 1) := by omega
    have hk : idx - 1 < vs.length := by omega
    rw [hchar, if_pos (by rw [length_buffer]; omega), buffer_set hk]
  · rfl

theorem updates_eq {us : List (ℕ × IndicatorStatus)} (hvs : vs.length ≤ 16384)
    (hidx : ∀ u ∈ us, u.1 ≤ vs.length) :
    us.foldlM (hfpUpdateIndicatorsCommand 7) (buffer vs) = some (buffer (us.foldl setStatus vs)) := by
  induction us generalizing vs with
  | nil => rfl
  | cons u us ih =>
    have hlength := length_setStatus vs u
    rw [foldlM_cons, update_eq hvs (hidx u mem_cons_self)]
    exact ih (hlength.trans_le hvs) fun u' hu' => hlength ▸ hidx u' (mem_cons_of_mem u hu')

/-- The character of a value after an update. -/
def setChar (k : ℕ) (c : Char) (update : ℕ × IndicatorStatus) : Char :=
  if update.1 = k + 1 ∧ update.2 ≠ .off then statusChar update.2 else c

theorem getElem?_setStatus (vs : List Char) (update : ℕ × IndicatorStatus) (k : ℕ) :
    (setStatus vs update)[k]? = vs[k]?.map fun c => setChar k c update := by
  obtain ⟨idx, status⟩ := update
  rw [setStatus]
  split
  · rename_i hset
    rw [List.getElem?_set]
    split
    · rename_i hk
      subst hk
      have hidx : idx = idx - 1 + 1 := by have := hset.1; dsimp only at this; omega
      cases hget : vs[idx - 1]? with
      | none =>
        rw [if_neg (by have := List.getElem?_eq_none_iff.mp hget; dsimp only; omega)]
        rfl
      | some c =>
        rw [if_pos (List.getElem?_eq_some_iff.mp hget).1, Option.map_some, setChar, if_pos ⟨hidx, hset.2⟩]
    · rename_i hk
      have hne : ¬(idx = k + 1 ∧ status ≠ .off) := by
        rintro ⟨rfl, -⟩
        exact hk rfl
      simp only [setChar, if_neg hne, Option.map_id']
  · rename_i hset
    have hne : ¬(idx = k + 1 ∧ status ≠ .off) := by
      rintro ⟨rfl, hstatus⟩
      exact hset ⟨Nat.succ_ne_zero k, hstatus⟩
    simp only [setChar, if_neg hne, Option.map_id']

theorem getElem?_updates (us : List (ℕ × IndicatorStatus)) (vs : List Char) (k : ℕ) :
    (us.foldl setStatus vs)[k]? = vs[k]?.map fun c => us.foldl (setChar k) c := by
  induction us generalizing vs with
  | nil => simp only [foldl_nil, Option.map_id']
  | cons u us ih =>
    rw [foldl_cons, ih, getElem?_setStatus, Option.map_map]
    rfl

theorem setChar_of_eq (k : ℕ) (status : IndicatorStatus) : setChar k '0' (k + 1, status) = statusChar status := by
  cases status with
  | off => exact if_neg fun h => h.2 rfl
  | on => exact if_pos ⟨rfl, IndicatorStatus.noConfusion⟩
  | ignore => exact if_pos ⟨rfl, IndicatorStatus.noConfusion⟩

theorem setChar_of_ne {k i : ℕ} (hi : i ≠ k + 1) (c : Char) (status : IndicatorStatus) :
    setChar k c (i, status) = c := if_neg fun h => hi h.1

/-- The indicators that are always on. -/
theorem foldl_setChar_on (k : ℕ) (idxs : List ℕ) (c : Char) :
    (idxs.map fun i => (i, IndicatorStatus.on)).foldl (setChar k) c = if k + 1 ∈ idxs then '1' else c := by
  induction idxs generalizing c with
  | nil => rfl
  | cons i idxs ih =>
    rw [map_cons, foldl_cons, ih]
    by_cases hi : i = k + 1
    · subst hi
      have hchar : setChar k c (k + 1, .on) = '1' := if_pos ⟨rfl, IndicatorStatus.noConfusion⟩
      rw [hchar, ite_self, if_pos mem_cons_self]
    · have hmem : k + 1 ∈ i :: idxs ↔ k + 1 ∈ idxs := by
        rw [mem_cons]
        exact or_iff_right fun h => hi h.symm
      rw [setChar_of_ne hi]
      simp only [hmem]

/-- Of four updates, at most one is that of the value. -/
theorem foldl_optional {k a b c d : ℕ} (x y z w : IndicatorStatus)
    (ha : a = k + 1 → b ≠ k + 1 ∧ c ≠ k + 1 ∧ d ≠ k + 1) (hb : b = k + 1 → c ≠ k + 1 ∧ d ≠ k + 1)
    (hc : c = k + 1 → d ≠ k + 1) :
    [(a, x), (b, y), (c, z), (d, w)].foldl (setChar k) '0' =
      statusChar (if k + 1 = a then x else if k + 1 = b then y else if k + 1 = c then z
        else if k + 1 = d then w else .off) := by
  simp only [foldl_cons, foldl_nil]
  by_cases hak : a = k + 1
  · obtain ⟨hbk, hck, hdk⟩ := ha hak
    rw [hak, setChar_of_ne hdk, setChar_of_ne hck, setChar_of_ne hbk, setChar_of_eq, if_pos rfl]
  rw [setChar_of_ne hak, if_neg fun h => hak h.symm]
  by_cases hbk : b = k + 1
  · obtain ⟨hck, hdk⟩ := hb hbk
    rw [hbk, setChar_of_ne hdk, setChar_of_ne hck, setChar_of_eq, if_pos rfl]
  rw [setChar_of_ne hbk, if_neg fun h => hbk h.symm]
  by_cases hck : c = k + 1
  · rw [hck, setChar_of_ne (hc hck), setChar_of_eq, if_pos rfl]
  rw [setChar_of_ne hck, if_neg fun h => hck h.symm]
  by_cases hdk : d = k + 1
  · rw [hdk, setChar_of_eq, if_pos rfl]
  rw [setChar_of_ne hdk, if_neg fun h => hdk h.symm]
  rfl

variable {t : IndicatorIndexes} {o : OptionalIndicators}

/-- The last update of a value is that of what has been chosen. -/
theorem foldl_updates (k : ℕ) : (updates t o).foldl (setChar k) '0' = statusChar (choice t o (k + 1)) := by
  have hnodup := pairwise_filter.mp t.nodup
  simp only [Indicators.toList, pairwise_cons, mem_cons, not_mem_nil, or_false, forall_eq_or_imp,
    forall_eq, decide_eq_true_eq] at hnodup
  obtain ⟨⟨hss, hsr, hsb, -⟩, ⟨hgr, hgb, -⟩, ⟨hrb, -⟩, -⟩ := hnodup
  have hne : ∀ {i j : ℕ}, (i ≠ 0 → j ≠ 0 → i ≠ j) → i = k + 1 → j ≠ k + 1 := by
    rintro i j h rfl rfl
    exact h (Nat.succ_ne_zero k) (Nat.succ_ne_zero k) rfl
  have hsplit : updates t o = [(t.indicatorIdxs.service, o.service), (t.indicatorIdxs.signalStrength, o.signalStrength),
      (t.indicatorIdxs.roamingStatus, o.roamingStatus), (t.indicatorIdxs.batteryCharge, o.batteryCharge)] ++
      (mandatory t).map fun i => (i, .on) := by
    rw [mandatory, map_append]
    rfl
  rw [hsplit, foldl_append, foldl_setChar_on, foldl_optional _ _ _ _
    (fun h => ⟨hne hss h, hne hsr h, hne hsb h⟩) (fun h => ⟨hne hgr h, hne hgb h⟩) (hne hrb), choice]
  split <;> rfl

/-- The values of the command. -/
def values (t : IndicatorIndexes) (o : OptionalIndicators) : List Char :=
  (List.range t.numIndicators).map fun k => statusChar (choice t o (k + 1))

theorem foldl_setStatus : (updates t o).foldl setStatus (List.replicate t.numIndicators '0') = values t o := by
  refine ext_getElem? fun k => ?_
  rw [getElem?_updates, values, List.getElem?_map]
  by_cases hk : k < t.numIndicators
  · rw [List.getElem?_replicate, if_pos hk, List.getElem?_range hk, Option.map_some, Option.map_some, foldl_updates]
  · rw [List.getElem?_replicate, if_neg hk, List.getElem?_eq_none (by rw [length_range]; omega)]
    rfl

theorem mem_values {c : Char} (h : c ∈ values t o) : ∃ status, c = statusChar status := by
  obtain ⟨k, -, hk⟩ := mem_map.mp h
  exact ⟨_, hk.symm⟩

theorem mem_render {c : Char} (h : c ∈ render vs) : c = ',' ∨ c ∈ vs := by
  obtain ⟨v, hv, hc⟩ := mem_flatMap.mp h
  rcases mem_cons.mp hc with rfl | hc
  · exact Or.inr hv
  · exact Or.inl (mem_singleton.mp hc)

/-- The text of the values has neither an end of a string nor one of a line. -/
theorem ne_of_mem_render {c : Char} (h : c ∈ render (values t o)) : c ≠ '\x00' ∧ c ≠ '\r' := by
  rcases mem_render h with rfl | h
  · decide
  · obtain ⟨status, rfl⟩ := mem_values h
    cases status <;> decide

/-- **The command**: a value for each indicator, and one more. -/
theorem setActiveIndicators_eq :
    hfpHandleSetActiveIndicatorsReq t o = some (atCmd ++ (render (values t o) ++ ['0', '\r'])) := by
  have hsize := sizeBia_eq t.num_le
  have hfill : fill (sizeBia t.numIndicators) (sizeBia t.numIndicators) atCmd.length =
      render (List.replicate t.numIndicators '0') :=
    fill_eq (by rw [hsize]; change 7 + 2 * t.numIndicators + 3 = _; omega) (by omega)
  have hidx : ∀ u ∈ updates t o, u.1 ≤ (List.replicate t.numIndicators '0').length := by
    intro u hu
    rw [length_replicate]
    have hkeys : (updates t o).map Prod.fst = t.indicatorIdxs.toList ++ t.extraIndicatorIdxs := by
      rw [updates, map_append, map_map]
      exact congrArg _ (map_id' _)
    exact t.idx_le _ (hkeys ▸ mem_map_of_mem hu)
  have hstrlen : (buffer (values t o)).takeWhile (· ≠ '\x00') = atCmd ++ (render (values t o) ++ ['0', '\r']) := by
    have hchars : ∀ c ∈ atCmd ++ render (values t o), decide (c ≠ '\x00') = true := by
      intro c hc
      rcases mem_append.mp hc with hc | hc
      · have hcmd : ∀ c ∈ atCmd, decide (c ≠ '\x00') = true := all_eq_true.mp rfl
        exact hcmd c hc
      · exact decide_eq_true (ne_of_mem_render hc).1
    rw [buffer, takeWhile_append_of_pos hchars, append_assoc]
    rfl
  have hroom : ¬2 * t.numIndicators + 10 < atCmd.length + atEnd.length := by
    change ¬2 * t.numIndicators + 10 < 10
    omega
  have hupdates := updates_eq (by rw [length_replicate]; exact t.num_le) hidx
  rw [foldl_setStatus] at hupdates
  rw [hfpHandleSetActiveIndicatorsReq, hfill, hsize, if_neg hroom]
  exact (congrArg (Option.map _) hupdates).trans (congrArg some hstrlen)

/-! ### The text that is taken apart -/

/-- The loop over a text. -/
def parseList (cs : List Char) (indicatorIdx : ℕ) (m : IndicatorsActivation) : Option IndicatorsActivation :=
  biaLoop (fun i => cs.getD i '\r') cs.length 0 indicatorIdx m

variable {m : IndicatorsActivation}

/-- The loop reads from the `i`-th character on. -/
theorem biaLoop_congr {data data' : ℕ → Char} {n i j indicatorIdx : ℕ}
    (h : ∀ k < n, data (i + k) = data' (j + k)) :
    biaLoop data n i indicatorIdx m = biaLoop data' n j indicatorIdx m := by
  induction n generalizing i j indicatorIdx m with
  | zero => rfl
  | succ n ih =>
    have hhead : data i = data' j := h 0 (Nat.succ_pos n)
    have htail : ∀ k < n, data (i + 1 + k) = data' (j + 1 + k) := by
      intro k hk
      rw [Nat.add_assoc, Nat.add_assoc, Nat.add_comm 1 k]
      exact h (k + 1) (Nat.succ_lt_succ hk)
    rw [biaLoop, biaLoop, hhead]
    simp only [ih htail]

theorem parseList_nil (indicatorIdx : ℕ) (m : IndicatorsActivation) : parseList [] indicatorIdx m = some m := rfl

theorem parseList_cons (c : Char) (cs : List Char) (indicatorIdx : ℕ) (m : IndicatorsActivation) :
    parseList (c :: cs) indicatorIdx m =
      if c = ',' ∨ c = ';' then if 6 < indicatorIdx + 1 then some m else parseList cs (indicatorIdx + 1) m
      else if c = ' ' ∨ c = '\t' then parseList cs indicatorIdx m
      else if c = '0' ∨ c = '1' then
        parseList cs indicatorIdx (m.write indicatorIdx (if c = '1' then .on else .off))
      else none := by
  have htail : ∀ indicatorIdx m, biaLoop (fun i => (c :: cs).getD i '\r') cs.length 1 indicatorIdx m =
      parseList cs indicatorIdx m := by
    intro indicatorIdx m
    refine biaLoop_congr fun k _ => ?_
    rw [Nat.zero_add, Nat.add_comm, getD_cons_succ]
  rw [parseList, length_cons, biaLoop]
  simp only [Nat.zero_add, htail, getD_cons_zero]

/-- What is taken from a value. -/
def take (m : IndicatorsActivation) (indicatorIdx : ℕ) (status : IndicatorStatus) : IndicatorsActivation :=
  if status = .ignore then m else m.write indicatorIdx status

theorem parseList_value (status : IndicatorStatus) (cs : List Char) (indicatorIdx : ℕ) (m : IndicatorsActivation) :
    parseList (statusChar status :: cs) indicatorIdx m = parseList cs indicatorIdx (take m indicatorIdx status) := by
  rw [parseList_cons]
  cases status <;> rfl

theorem parseList_separator (cs : List Char) (indicatorIdx : ℕ) (m : IndicatorsActivation) :
    parseList (',' :: cs) indicatorIdx m =
      if 6 < indicatorIdx + 1 then some m else parseList cs (indicatorIdx + 1) m := by
  rw [parseList_cons]
  rfl

/-- Blanks at the start of a text do not matter. -/
theorem parseList_dropWhile (cs : List Char) (indicatorIdx : ℕ) (m : IndicatorsActivation) :
    parseList (cs.dropWhile fun c => c = ' ' ∨ c = '\t') indicatorIdx m = parseList cs indicatorIdx m := by
  induction cs with
  | nil => rfl
  | cons c cs ih =>
    rw [dropWhile_cons]
    split
    · rename_i hblank
      have hblank : c = ' ' ∨ c = '\t' := of_decide_eq_true hblank
      rw [ih, parseList_cons, if_neg (by rcases hblank with rfl | rfl <;> decide), if_pos hblank]
    · rfl

/-- The values of a text, the last one without a separator: up to the seventh position each is taken. -/
def takeAll : List IndicatorStatus → ℕ → IndicatorsActivation → IndicatorsActivation
  | [], _, m => m
  | status :: statuses, indicatorIdx, m =>
    if indicatorIdx < 7 then takeAll statuses (indicatorIdx + 1) (take m indicatorIdx status) else m

theorem parseList_render (statuses : List IndicatorStatus) (last : IndicatorStatus) {indicatorIdx : ℕ}
    (hidx : indicatorIdx < 7) (m : IndicatorsActivation) :
    parseList (render (statuses.map statusChar) ++ [statusChar last]) indicatorIdx m =
      some (takeAll (statuses ++ [last]) indicatorIdx m) := by
  induction statuses generalizing indicatorIdx m with
  | nil =>
    rw [map_nil, render_nil, nil_append, parseList_value, parseList_nil, nil_append, takeAll,
      if_pos hidx]
    rfl
  | cons status statuses ih =>
    rw [map_cons, render_cons, cons_append, cons_append, parseList_value, parseList_separator,
      cons_append, takeAll, if_pos hidx]
    split
    · rename_i hlast
      obtain rfl : indicatorIdx = 6 := by omega
      cases statuses with
      | nil => rfl
      | cons status' statuses => rfl
    · exact ih (by omega) _

theorem get_write {p : ℕ} (hp : p ∈ agPositions) (m : IndicatorsActivation) (i : ℕ) (status : IndicatorStatus) :
    (m.write i status).get p = if i = p then status else m.get p := by
  simp only [agPositions, mem_cons, not_mem_nil, or_false] at hp
  rcases hp with rfl | rfl | rfl | rfl <;> rcases i with _ | _ | _ | _ | _ | _ | _ | i <;> rfl

theorem get_take {p i : ℕ} (hp : p ∈ agPositions) (hm : m.get i = .ignore)
    (status : IndicatorStatus) : (take m i status).get p = if i = p then status else m.get p := by
  rw [take]
  split
  · rename_i hstatus
    split
    · rename_i hip
      rw [hstatus, ← hip, hm]
    · rfl
  · exact get_write hp m i status

/-- A position has the value that the text has there, if any. -/
theorem get_takeAll {statuses : List IndicatorStatus} {i p : ℕ} (hp : p ∈ agPositions)
    (hm : ∀ j, i ≤ j → m.get j = .ignore) :
    (takeAll statuses i m).get p = if p < i then m.get p else (statuses[p - i]?).getD .ignore := by
  have hp7 : p < 7 := by
    revert p
    decide
  induction statuses generalizing i m with
  | nil =>
    rw [takeAll]
    split
    · rfl
    · exact hm p (by omega)
  | cons status statuses ih =>
    rw [takeAll]
    split
    · have hm' : ∀ j, i + 1 ≤ j → (take m i status).get j = .ignore := by
        intro j hj
        by_cases hjp : j ∈ agPositions
        · rw [get_take hjp (hm i le_rfl), if_neg (by omega), hm j (by omega)]
        · rw [IndicatorsActivation.get.eq_def]
          split <;> first | rfl | exact absurd (by decide) hjp
      rw [ih hm', get_take hp (hm i le_rfl)]
      rcases Nat.lt_trichotomy p i with hlt | rfl | hgt
      · rw [if_pos (by omega), if_neg (by omega), if_pos hlt]
      · rw [if_pos (Nat.lt_succ_self p), if_pos rfl, if_neg (Nat.lt_irrefl p), Nat.sub_self]
        rfl
      · rw [if_neg (by omega), if_neg (by omega), show p - i = p - (i + 1) + 1 by omega, List.getElem?_cons_succ]
    · rw [if_pos (by omega)]

theorem dropWhile_append_cr (cs : List Char) :
    (cs ++ ['\r']).dropWhile (fun c => c = ' ' ∨ c = '\t') =
      cs.dropWhile (fun c => c = ' ' ∨ c = '\t') ++ ['\r'] := by
  induction cs with
  | nil => rfl
  | cons c cs ih =>
    rw [cons_append, dropWhile_cons, dropWhile_cons]
    split
    · exact ih
    · rfl

/-- A command is taken for its values. -/
theorem parse_command {body : List Char} (hbody : ∀ c ∈ body, c ≠ '\r') :
    ∃ indicators, matchBia (atCmd ++ (body ++ ['\r'])) = some indicators ∧
      aghfpHandleBiaParse indicators = parseList body 0 .unchanged := by
  have htake : ((body ++ ['\r']).dropWhile fun c => c = ' ' ∨ c = '\t').takeWhile (· ≠ '\r') =
      body.dropWhile fun c => c = ' ' ∨ c = '\t' := by
    have hdrop : ∀ c ∈ body.dropWhile (fun c => c = ' ' ∨ c = '\t'), decide (c ≠ '\r') = true :=
      fun c hc => decide_eq_true (hbody c ((dropWhile_sublist _).subset hc))
    rw [dropWhile_append_cr, takeWhile_append_of_pos hdrop]
    exact append_nil _
  have hcr : '\r' ∈ (body ++ ['\r']).dropWhile fun c => c = ' ' ∨ c = '\t' := by
    rw [dropWhile_append_cr]
    exact mem_append_right _ mem_cons_self
  refine ⟨⟨fun i => (body.dropWhile fun c => c = ' ' ∨ c = '\t').getD i '\r',
    (body.dropWhile fun c => c = ' ' ∨ c = '\t').length⟩, ?_, parseList_dropWhile body 0 .unchanged⟩
  rw [matchBia, if_pos (prefix_append _ _), drop_left]
  dsimp only
  rw [if_pos hcr, htake]

/-! ### The round trip -/

/-- What the audio gateway takes from the command: the value after the last indicator is off. -/
theorem parse_setActiveIndicators (t : IndicatorIndexes) (o : OptionalIndicators) :
    ∃ text indicators m, hfpHandleSetActiveIndicatorsReq t o = some text ∧ matchBia text = some indicators ∧
      aghfpHandleBiaParse indicators = some m ∧
      ∀ p ∈ agPositions, m.get p =
        if p < t.numIndicators then choice t o (p + 1) else if p = t.numIndicators then .off else .ignore := by
  have hcommand : hfpHandleSetActiveIndicatorsReq t o =
      some (atCmd ++ ((render (values t o) ++ ['0']) ++ ['\r'])) := by
    rw [setActiveIndicators_eq, append_assoc]
    rfl
  have hbody : ∀ c ∈ render (values t o) ++ ['0'], c ≠ '\r' := by
    intro c hc
    rcases mem_append.mp hc with hc | hc
    · exact (ne_of_mem_render hc).2
    · rw [mem_singleton.mp hc]
      decide
  obtain ⟨indicators, hmatch, hparse⟩ := parse_command hbody
  have hvalues : values t o = ((List.range t.numIndicators).map fun k => choice t o (k + 1)).map statusChar := by
    rw [values, map_map]
    rfl
  rw [hvalues] at hparse
  refine ⟨_, indicators, _, hcommand, hmatch, hparse.trans (parseList_render _ .off (by decide) _), fun p hp => ?_⟩
  have hunchanged : ∀ j, IndicatorsActivation.unchanged.get j = .ignore := by
    intro j
    rw [IndicatorsActivation.get.eq_def]
    split <;> rfl
  rw [get_takeAll hp fun j _ => hunchanged j, if_neg (Nat.not_lt_zero p), Nat.sub_zero]
  rcases Nat.lt_trichotomy p t.numIndicators with hlt | heq | hgt
  · rw [if_pos hlt, List.getElem?_append_left (by rwa [length_map, length_range]), List.getElem?_map,
      List.getElem?_range hlt]
    rfl
  · rw [if_neg heq.not_lt, if_pos heq, List.getElem?_append_right (by rw [length_map, length_range]; omega),
      length_map, length_range, heq, Nat.sub_self]
    rfl
  · rw [if_neg (by omega), if_neg (by omega), List.getElem?_eq_none (by simp; omega)]
    rfl

theorem written_write (m : IndicatorsActivation) (i : ℕ) (status : IndicatorStatus) :
    (m.write i status).written = i :: m.written := by
  rw [IndicatorsActivation.write.eq_def]
  split <;> rfl

/-- Every position that is written is one that the audio gateway has. -/
theorem written_biaLoop {data : ℕ → Char} {n i indicatorIdx : ℕ} {m m' : IndicatorsActivation}
    (hidx : indicatorIdx ≤ 6) (hm : ∀ p ∈ m.written, p ≤ 6)
    (h : biaLoop data n i indicatorIdx m = some m') : ∀ p ∈ m'.written, p ≤ 6 := by
  induction n generalizing i indicatorIdx m with
  | zero =>
    obtain rfl : m = m' := Option.some.inj h
    exact hm
  | succ n ih =>
    rw [biaLoop] at h
    split at h
    · split at h
      · obtain rfl : m = m' := Option.some.inj h
        exact hm
      · exact ih (by omega) hm h
    · split at h
      · exact ih hidx hm h
      · split at h
        · refine ih hidx (fun p hp => ?_) h
          rw [written_write] at hp
          rcases mem_cons.mp hp with rfl | hp
          · exact hidx
          · exact hm p hp
        · exact absurd h (by simp)

theorem parsesSafely : ParsesSafely := by
  refine ⟨fun data data' length h => biaLoop_congr fun k hk => ?_, fun indicators m hm => ?_⟩
  · rw [Nat.zero_add]
    exact h k hk
  · exact written_biaLoop (Nat.zero_le 6) (fun p hp => absurd hp not_mem_nil) hm

/-- One value too many: the indicator after the last one is switched off. -/
theorem not_activated {t : IndicatorIndexes} {o : OptionalIndicators} (hnum : t.numIndicators ∈ agPositions) :
    ¬Activated t o := by
  rintro ⟨text', indicators', m', htext', hmatch', hparse', hget'⟩
  obtain ⟨text, indicators, m, htext, hmatch, hparse, hget⟩ := parse_setActiveIndicators t o
  obtain rfl := Option.some.inj (htext.symm.trans htext')
  obtain rfl := Option.some.inj (hmatch.symm.trans hmatch')
  obtain rfl := Option.some.inj (hparse.symm.trans hparse')
  have hoff := hget _ hnum
  have hignore := hget' _ hnum
  rw [if_neg (Nat.lt_irrefl _)] at hoff hignore
  rw [if_pos rfl, hignore] at hoff
  exact IndicatorStatus.noConfusion hoff

/-- **The values arrive exactly if no value is added for an indicator that the audio gateway has.** -/
theorem activated_iff (t : IndicatorIndexes) (o : OptionalIndicators) :
    Activated t o ∧ ParsesSafely ↔ t.numIndicators ∉ agPositions := by
  constructor
  · rintro ⟨htrip, -⟩ hnum
    exact not_activated hnum htrip
  · intro hnum
    obtain ⟨text, indicators, m, htext, hmatch, hparse, hget⟩ := parse_setActiveIndicators t o
    refine ⟨⟨text, indicators, m, htext, hmatch, hparse, fun p hp => ?_⟩, parsesSafely⟩
    have hne : p ≠ t.numIndicators := fun heq => hnum (heq ▸ hp)
    rw [hget p hp, if_neg hne]

/-- The round trip of every set of indicators. -/
def AlwaysActivated : Prop := ∀ t o, Activated t o ∧ ParsesSafely

/-- An audio gateway without an indicator of its battery. -/
def withoutBattery : IndicatorIndexes where
  indicatorIdxs := ⟨1, 2, 3, 0, 5, 6, 0, 4⟩
  extraIndicatorIdxs := []
  numIndicators := 6
  num_le := by decide
  idx_le := by decide
  nodup := by decide

theorem not_alwaysActivated : ¬AlwaysActivated := fun h =>
  not_activated (by decide) (h withoutBattery ⟨.on, .on, .on, .ignore⟩).1

end Cbps.Hfp.Bia
