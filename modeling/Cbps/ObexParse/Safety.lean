import Cbps.ObexParse.Tree
import Mathlib.Data.List.TakeWhile

/-!
# The parser stays inside of its data

Every handler moves the pointer inside of the data and lets `rank` fall, so the loops end and the
listed elements lie in the data, one behind the other. The one look behind the end is that of
`opHandleNewEntry`, which skips blanks and then looks at the octet it has reached: `safe_iff`
says that the parser is safe exactly if no entry begins in front of blanks only.
-/

namespace Cbps.ObexParse

open Lib List Option

open Lib (Yields)

variable {data : List Char}

/-! ### Looking at octets -/

variable {s : ℕ}

theorem peek_eq (h : s < data.length) : peek data s = .ok data[s] := by
  rw [peek, List.getElem?_eq_getElem h]

theorem skipWhile_eq (p : Char → Bool) (h : s ≤ data.length) :
    skipWhile data p s = .ok (s + ((data.drop s).takeWhile p).length) := if_pos h

theorem add_length_takeWhile_le (p : Char → Bool) (h : s ≤ data.length) :
    s + ((data.drop s).takeWhile p).length ≤ data.length := by
  have hle := (takeWhile_sublist p (l := data.drop s)).length_le
  rw [length_drop] at hle
  omega

/-- `opCheckChar` compares one octet. -/
theorem opCheckChar_eq (h : s ≤ data.length) (c : Char) :
    opCheckChar data (some s) c = .ok (if data[s]? = some c then some (s + 1) else none) := by
  rcases Nat.lt_or_eq_of_le h with hlt | rfl
  · simp only [opCheckChar, if_pos (Nat.ne_of_lt hlt), peek_eq hlt, ok_bind, pure_eq_ok,
      List.getElem?_eq_getElem hlt, some.injEq]
  · simp [opCheckChar]

theorem foldlM_opCheckChar_none (cs : List Char) :
    cs.foldlM (opCheckChar data) none = .ok none := by
  induction cs with
  | nil => rfl
  | cons c cs ih => exact ih

theorem cons_prefix_drop {c : Char} {cs : List Char} :
    c :: cs <+: data.drop s ↔ data[s]? = some c ∧ cs <+: data.drop (s + 1) := by
  rcases Nat.lt_or_ge s data.length with hlt | hge
  · rw [drop_eq_getElem_cons hlt, cons_prefix_cons, List.getElem?_eq_getElem hlt,
      some.injEq, eq_comm]
  · simp [drop_eq_nil_of_le hge, List.getElem?_eq_none hge]

/-- `opCheckChars` compares a word. -/
theorem opCheckChars_eq (h : s ≤ data.length) (cs : List Char) :
    opCheckChars data s cs = .ok (if cs <+: data.drop s then some (s + cs.length) else none) := by
  induction cs generalizing s with
  | nil => simp [opCheckChars]
  | cons c cs ih =>
    rw [opCheckChars, foldlM_cons, opCheckChar_eq h, ok_bind]
    by_cases hc : data[s]? = some c
    · have hlt : s < data.length := (List.getElem?_eq_some_iff.mp hc).1
      rw [if_pos hc]
      refine (ih hlt).trans ?_
      simp only [cons_prefix_drop, hc, true_and, length_cons, Nat.succ_add, Nat.add_succ]
    · rw [if_neg hc, foldlM_opCheckChar_none, if_neg fun hprefix => hc (cons_prefix_drop.mp hprefix).1]

/-- A start tag: `<` without a slash behind it, or `BEGIN:`. -/
def AtStartTag (data : List Char) (s : ℕ) : OpType → Prop
  | .xmlObject => data[s]? = some '<' ∧ data[s + 1]? ≠ some '/'
  | .irdaObject => ['B', 'E', 'G', 'I', 'N', ':'] <+: data.drop s

instance (s : ℕ) (type : OpType) : Decidable (AtStartTag data s type) := by
  cases type <;> rw [AtStartTag] <;> infer_instance

/-- An end tag: `</`, `/>` or `END:`. -/
def AtEndTag (data : List Char) (s : ℕ) : OpType → Prop
  | .xmlObject => (data[s]? = some '/' ∧ (data[s - 1]? = some '<' ∨ data[s + 1]? = some '>')) ∨
      (data[s]? = some '<' ∧ data[s + 1]? = some '/')
  | .irdaObject => ['E', 'N', 'D', ':'] <+: data.drop s

instance (s : ℕ) (type : OpType) : Decidable (AtEndTag data s type) := by
  cases type <;> rw [AtEndTag] <;> infer_instance

theorem opCheckStartTag_eq (h : s ≤ data.length) (type : OpType) :
    opCheckStartTag data s type = .ok (decide (AtStartTag data s type)) := by
  cases type with
  | irdaObject =>
    rw [opCheckStartTag, opCheckChars_eq h, ok_bind]
    by_cases hword : ['B', 'E', 'G', 'I', 'N', ':'] <+: data.drop s <;> simp [AtStartTag, hword]
  | xmlObject =>
    rw [opCheckStartTag, opCheckChar_eq h, ok_bind]
    by_cases hc : data[s]? = some '<'
    · have hlt : s < data.length := (List.getElem?_eq_some_iff.mp hc).1
      rw [if_pos hc]
      simp only [opCheckChar_eq hlt, ok_bind]
      by_cases hslash : data[s + 1]? = some '/' <;> simp [AtStartTag, hc, hslash]
    · simp [AtStartTag, hc]

/-- `opCheckEndTag` looks behind `s`, so a slash must not be the first octet. -/
theorem opCheckEndTag_eq (h : s ≤ data.length) (type : OpType)
    (hpos : type = .xmlObject → data[s]? = some '/' → 0 < s) :
    opCheckEndTag data s type = .ok (decide (AtEndTag data s type)) := by
  cases type with
  | irdaObject =>
    rw [opCheckEndTag, opCheckChars_eq h, ok_bind]
    by_cases hword : ['E', 'N', 'D', ':'] <+: data.drop s <;> simp [AtEndTag, hword]
  | xmlObject =>
    rw [opCheckEndTag, opCheckChar_eq h, ok_bind]
    by_cases hc : data[s]? = some '/'
    · have hlt : s < data.length := (List.getElem?_eq_some_iff.mp hc).1
      have hne : s ≠ 0 := (hpos rfl hc).ne'
      have hbefore : s - 1 < data.length := by omega
      rw [if_pos hc]
      simp only [isSome_some, if_true, retreat, if_neg hne, ok_bind, peek_eq hbefore,
        opCheckChar_eq (show s + 1 ≤ data.length from hlt), AtEndTag, hc,
        List.getElem?_eq_getElem hbefore]
      by_cases hlt' : data[s - 1] = '<'
      · simp [hlt']
      · by_cases hgt : data[s + 1]? = some '>' <;> simp [hlt', hgt]
    · have htwo : ['<', '/'] <+: data.drop s ↔ data[s]? = some '<' ∧ data[s + 1]? = some '/' := by
        rw [cons_prefix_drop, cons_prefix_drop]
        simp
      rw [if_neg hc]
      by_cases hlt : data[s]? = some '<' ∧ data[s + 1]? = some '/'
      · simp [opCheckChars_eq h, AtEndTag, htwo, hlt]
      · simp [opCheckChars_eq h, AtEndTag, htwo, hlt, hc]

/-! ### Moving forward -/

/-- The pointer moves forward, and stays in the data. -/
def Forward (data : List Char) (s s' : ℕ) : Prop := s ≤ s' ∧ s' ≤ data.length

theorem Forward.trans {s s' s'' : ℕ} (h : Forward data s s') (h' : Forward data s' s'') :
    Forward data s s'' := ⟨h.1.trans h'.1, h'.2⟩

theorem skipWhile_forward (p : Char → Bool) (h : s ≤ data.length) :
    Yields (skipWhile data p s) (Forward data s) := by
  rw [skipWhile_eq p h]
  exact .ok ⟨Nat.le_add_right _ _, add_length_takeWhile_le p h⟩

theorem opSkipBlank_forward (h : s ≤ data.length) :
    Yields (opSkipBlank data s) (Forward data s) :=
  (skipWhile_forward _ h).bind fun _ hcrlf =>
    (skipWhile_forward _ hcrlf.2).mono fun _ hspace => hcrlf.trans hspace

theorem opSkipJunk_forward (h : s ≤ data.length) :
    Yields (opSkipJunk data s) (Forward data s) :=
  (skipWhile_forward _ h).bind fun _ hcrlf =>
    (skipWhile_forward _ hcrlf.2).bind fun _ hspace =>
      (skipWhile_forward _ hspace.2).mono fun _ hnull => (hcrlf.trans hspace).trans hnull

/-- A line break is skipped. -/
theorem opSkipBlank_progress (h : s ≤ data.length)
    (hbreak : data[s]? = some '\n' ∨ data[s]? = some '\r') :
    Yields (opSkipBlank data s) fun s' => s < s' ∧ s' ≤ data.length := by
  have hlt : s < data.length := by
    rcases hbreak with hc | hc <;> exact (List.getElem?_eq_some_iff.mp hc).1
  have hskip : Yields (opSkipCRLF data s) fun s' => s < s' ∧ s' ≤ data.length := by
    rw [opSkipCRLF, opSkipChars, skipWhile_eq _ h]
    refine .ok ⟨?_, add_length_takeWhile_le _ h⟩
    rw [List.getElem?_eq_getElem hlt, some.injEq, some.injEq] at hbreak
    rw [drop_eq_getElem_cons hlt, takeWhile_cons_of_pos (by simpa using hbreak),
      length_cons]
    omega
  exact hskip.bind fun _ hcrlf =>
    (skipWhile_forward _ hcrlf.2).mono fun _ hspace => ⟨hcrlf.1.trans_le hspace.1, hspace.2⟩

theorem advance_forward (h : s ≤ data.length) : Forward data s (advance data s) := by
  rw [advance]
  split
  · exact ⟨Nat.le_succ s, by omega⟩
  · exact ⟨le_rfl, h⟩

theorem lt_advance (h : s < data.length) : s < advance data s := by
  rw [advance, if_pos h.ne]
  exact Nat.lt_succ_self s

theorem lt_advance_of_forward {s s' : ℕ} (h : s < data.length) (hs' : Forward data s s') :
    s < advance data s' := by
  rcases Nat.lt_or_eq_of_le hs'.2 with hlt | rfl
  · exact hs'.1.trans_lt (lt_advance hlt)
  · exact h.trans_le (advance_forward le_rfl).1

theorem not_of_getElem?_takeWhile {p : Char → Bool} {l : List Char} {c : Char}
    (h : l[(l.takeWhile p).length]? = some c) : p c = false := by
  induction l with
  | nil => cases h
  | cons d l ih =>
    by_cases hd : p d
    · rw [takeWhile_cons_of_pos hd, length_cons, List.getElem?_cons_succ] at h
      exact ih h
    · rw [takeWhile_cons_of_neg hd, length_nil, List.getElem?_cons_zero] at h
      rw [← some.inj h]
      exact Bool.eq_false_iff.mpr hd

/-- Where `opSkipToMulChars` stops. -/
theorem opSkipToMulChars_forward (x y z : Char) (h : s ≤ data.length) :
    Yields (opSkipToMulChars data s x y z) fun s' => Forward data s s' ∧
      ∀ c, data[s']? = some c → c = x ∨ c = y ∨ c = z := by
  rw [opSkipToMulChars, skipWhile_eq _ h]
  refine .ok ⟨⟨Nat.le_add_right _ _, add_length_takeWhile_le _ h⟩, fun c hc => ?_⟩
  rw [← List.getElem?_drop] at hc
  have hstop := not_of_getElem?_takeWhile hc
  simp only [decide_eq_false_iff_not] at hstop
  tauto

/-! ### Inside of an entry -/

/-- What holds while the entry that begins at `s₀` is parsed. On an XML object, a slash is only
looked at behind another octet, because `opCheckEndTag` looks at the octet in front of it. -/
structure InData (data : List Char) (s₀ : ℕ) (cur : Cursor) : Prop where
  le : cur.s ≤ data.length
  folds_lt : cur.handle.folds < 256
  fresh : cur.handle.state = .newEntry → s₀ ≤ cur.s
  element : cur.handle.state ≠ .newEntry →
    s₀ ≤ cur.element.object ∧ cur.element.object ≤ cur.s ∧ cur.element.object + cur.element.len ≤
      if cur.handle.state = .ended then cur.s else data.length
  folds_zero : cur.handle.state = .newEntry ∨ cur.handle.state = .ended → cur.handle.folds = 0
  startTag : cur.handle.type = .xmlObject → cur.handle.state = .inStartTag →
    data[cur.s]? = some '<'
  behind : cur.handle.type = .xmlObject → cur.handle.state = .inGetTag ∨
    cur.handle.state = .inGetElement ∨ cur.handle.state = .ended → 0 < cur.s
  unfolded : cur.handle.type = .xmlObject → 0 < cur.s ∨ cur.handle.folds = 0

/-- How far a state is from the next octet. -/
def OpState.weight : OpState → ℕ
  | newEntry => 3
  | inGetElement => 2
  | inStartTag => 1
  | _ => 0

/-- What falls in every turn: octets count most, then folds, then the state. -/
def rank (data : List Char) (cur : Cursor) : ℕ :=
  if cur.handle.state = .ended then 0
  else 1100 * (data.length - cur.s) + 4 * cur.handle.folds + cur.handle.state.weight + 1

/-- The turn keeps `InData` and lets the rank fall. -/
def Good (data : List Char) (s₀ : ℕ) (cur cur' : Cursor) : Prop :=
  InData data s₀ cur' ∧ cur'.handle.state ≠ .newEntry ∧ rank data cur' < rank data cur

theorem rank_lt_of_lt {cur cur' : Cursor} (hcur : cur.handle.state ≠ .ended)
    (hle : cur'.s ≤ data.length) (hlt : cur.s < cur'.s)
    (hfolds : cur'.handle.folds ≤ cur.handle.folds + 1) : rank data cur' < rank data cur := by
  have hweight : cur'.handle.state.weight ≤ 3 := by
    cases cur'.handle.state <;> decide
  rw [rank, rank, if_neg hcur]
  split <;> omega

theorem rank_lt_of_le {cur cur' : Cursor} (hcur : cur.handle.state ≠ .ended) (hle : cur.s ≤ cur'.s)
    (hfolds : 4 * cur'.handle.folds + cur'.handle.state.weight <
      4 * cur.handle.folds + cur.handle.state.weight) : rank data cur' < rank data cur := by
  rw [rank, rank, if_neg hcur]
  split <;> omega

theorem rank_of_ended {cur cur' : Cursor} (hended : cur'.handle.state = .ended)
    (hcur : cur.handle.state ≠ .ended) : rank data cur' < rank data cur := by
  rw [rank, rank, if_pos hended, if_neg hcur]
  exact Nat.succ_pos _

variable {s₀ : ℕ} {cur : Cursor}

/-- `opOnEndTag` ends the tag, or moves on unless it is at a start tag. -/
theorem opOnEndTag_yields (h : s ≤ data.length) (handle : OpHandle)
    (hpos : handle.type = .xmlObject → data[s]? = some '/' → 0 < s) :
    Yields (opOnEndTag data s handle) fun r => Forward data s r.2 ∧
      (r.1 = handle.to .inEndTag ∨
        r.1 = handle ∧ (AtStartTag data s handle.type ∨ r.2 = advance data s)) := by
  rw [opOnEndTag, opCheckEndTag_eq h _ hpos, ok_bind]
  by_cases hend : AtEndTag data s handle.type
  · simp only [hend, decide_true, if_true]
    split
    · exact (skipWhile_forward _ h).bind fun s' hs' => .pure ⟨hs', .inl rfl⟩
    · exact .pure ⟨⟨le_rfl, h⟩, .inl rfl⟩
  · simp only [hend, decide_false, Bool.false_eq_true, if_false, opCheckStartTag_eq h, ok_bind]
    by_cases hstart : AtStartTag data s handle.type
    · simp only [hstart, decide_true]
      exact .pure ⟨⟨le_rfl, h⟩, .inr ⟨rfl, .inl trivial⟩⟩
    · simp only [hstart, decide_false]
      exact .pure ⟨advance_forward h, .inr ⟨rfl, .inr rfl⟩⟩

/-- Between the beginning and the end of an entry. -/
structure InMiddle (data : List Char) (s₀ : ℕ) (cur : Cursor) : Prop where
  state : cur.handle.state ≠ .newEntry ∧ cur.handle.state ≠ .ended
  le : cur.s ≤ data.length
  folds_lt : cur.handle.folds < 256
  object : s₀ ≤ cur.element.object ∧ cur.element.object ≤ cur.s
  region : cur.element.object + cur.element.len ≤ data.length
  startTag : cur.handle.type = .xmlObject → cur.handle.state = .inStartTag →
    data[cur.s]? = some '<'
  behind : cur.handle.type = .xmlObject →
    cur.handle.state = .inGetTag ∨ cur.handle.state = .inGetElement → 0 < cur.s
  unfolded : cur.handle.type = .xmlObject → 0 < cur.s ∨ cur.handle.folds = 0

theorem InMiddle.inData (h : InMiddle data s₀ cur) : InData data s₀ cur where
  le := h.le
  folds_lt := h.folds_lt
  fresh := fun hnew => absurd hnew h.state.1
  element := fun _ => ⟨h.object.1, h.object.2, by rw [if_neg h.state.2]; exact h.region⟩
  folds_zero := fun hstate => absurd hstate (not_or.mpr h.state)
  startTag := h.startTag
  behind := by
    rintro hxml (htag | helem | hended)
    · exact h.behind hxml (.inl htag)
    · exact h.behind hxml (.inr helem)
    · exact absurd hended h.state.2
  unfolded := h.unfolded

theorem InData.inMiddle (h : InData data s₀ cur)
    (hstate : cur.handle.state ≠ .newEntry ∧ cur.handle.state ≠ .ended) : InMiddle data s₀ cur := by
  obtain ⟨hge, hobject, hregion⟩ := h.element hstate.1
  rw [if_neg hstate.2] at hregion
  exact ⟨hstate, h.le, h.folds_lt, ⟨hge, hobject⟩, hregion, h.startTag,
    fun hxml hs => h.behind hxml (hs.imp_right .inl), h.unfolded⟩

theorem InMiddle.good {cur' : Cursor} (h : InMiddle data s₀ cur')
    (hrank : rank data cur' < rank data cur) : Good data s₀ cur cur' :=
  ⟨h.inData, h.state.1, hrank⟩

/-- A turn in the middle of an entry that changes neither the element nor the folds. -/
theorem InMiddle.move (h : InMiddle data s₀ cur) {cur' : Cursor}
    (hforward : Forward data cur.s cur'.s) (helement : cur'.element = cur.element)
    (hfolds : cur'.handle.folds = cur.handle.folds) (htype : cur'.handle.type = cur.handle.type)
    (hstate' : cur'.handle.state ≠ .newEntry ∧ cur'.handle.state ≠ .ended)
    (hstart : cur.handle.type = .xmlObject → cur'.handle.state = .inStartTag →
      data[cur'.s]? = some '<')
    (hbehind : cur.handle.type = .xmlObject →
      cur'.handle.state = .inGetTag ∨ cur'.handle.state = .inGetElement → 0 < cur'.s) :
    InMiddle data s₀ cur' := by
  refine ⟨hstate', hforward.2, hfolds ▸ h.folds_lt, ?_, helement ▸ h.region, htype ▸ hstart,
    htype ▸ hbehind, ?_⟩
  · rw [helement]
    exact ⟨h.object.1, h.object.2.trans hforward.1⟩
  · rw [htype, hfolds]
    exact fun hxml => (h.unfolded hxml).imp_left fun hpos => hpos.trans_le hforward.1

/-- The length of a start tag. -/
theorem startLen_le {type : OpType} (h : AtStartTag data s type) :
    0 < type.startLen ∧ s + type.startLen ≤ data.length := by
  cases type with
  | xmlObject => exact ⟨Nat.one_pos, (List.getElem?_eq_some_iff.mp h.1).1⟩
  | irdaObject =>
    have hle := h.length_le
    rw [length_drop] at hle
    simp only [length_cons, length_nil] at hle
    simp only [OpType.startLen, opIrdaStartPropLen]
    omega

theorem opGetProp_yields (h : InMiddle data s₀ cur) (hstate : cur.handle.state = .inStartTag)
    (hlt : cur.s < data.length) : Yields (opGetProp data cur) (Good data s₀ cur) := by
  rw [opGetProp, opCheckStartTag_eq h.le, ok_bind]
  by_cases hstart : AtStartTag data cur.s cur.handle.type
  · obtain ⟨hpos, hle⟩ := startLen_le hstart
    simp only [hstart, decide_true, if_true]
    refine .pure (InMiddle.good (h.move ⟨Nat.le_add_right _ _, hle⟩ rfl rfl rfl ?_ ?_ ?_) ?_)
    · exact ⟨OpState.noConfusion, OpState.noConfusion⟩
    · exact fun _ => OpState.noConfusion
    · exact fun _ _ => Nat.add_pos_right _ hpos
    · exact rank_lt_of_lt h.state.2 hle (Nat.lt_add_of_pos_right hpos) (Nat.le_succ _)
  · simp only [hstart, decide_false, Bool.false_eq_true, if_false]
    refine (opOnEndTag_yields h.le cur.handle fun hxml hslash => ?_).bind ?_
    · rw [h.startTag hxml hstate] at hslash
      cases hslash
    · rintro ⟨handle, s⟩ ⟨hforward, rfl | ⟨rfl, hmoved⟩⟩
      · -- an end tag
        refine .pure (InMiddle.good (h.move hforward rfl rfl rfl ?_ ?_ ?_) ?_)
        · exact ⟨OpState.noConfusion, OpState.noConfusion⟩
        · exact fun _ => OpState.noConfusion
        · rintro _ (htag | helem)
          · cases htag
          · cases helem
        · exact rank_lt_of_le h.state.2 hforward.1 (by rw [hstate]; exact Nat.lt_add_one _)
      · -- neither a start tag nor an end tag: go on behind the octet
        obtain rfl : s = advance data cur.s := hmoved.resolve_left hstart
        have hadvance := lt_advance hlt
        simp only [hstate, if_true]
        refine .pure (InMiddle.good (h.move hforward rfl rfl rfl ?_ ?_ ?_) ?_)
        · exact ⟨OpState.noConfusion, OpState.noConfusion⟩
        · exact fun _ => OpState.noConfusion
        · exact fun _ _ => (Nat.zero_le _).trans_lt hadvance
        · exact rank_lt_of_lt h.state.2 hforward.2 hadvance (Nat.le_succ _)

theorem opCheckChars_yields (h : s ≤ data.length) (cs : List Char) :
    Yields (opCheckChars data s cs) fun r => r.isSome → s + cs.length ≤ data.length := by
  rw [opCheckChars_eq h]
  refine .ok fun hsome => ?_
  split at hsome
  · next hprefix =>
    have hle := hprefix.length_le
    rw [length_drop] at hle
    omega
  · cases hsome

theorem opParseXmlType_yields (h : s ≤ data.length) :
    Yields (opParseXmlType data s) fun _ => True := by
  have hadvance := (advance_forward h).2
  rw [opParseXmlType]
  refine (opCheckChars_yields h _).bind fun r _ => .ite (fun _ => .pure trivial) fun _ => ?_
  refine (opCheckChars_yields h _).bind fun r _ => .ite (fun _ => .pure trivial) fun _ => ?_
  refine (opCheckChars_yields h _).bind fun r _ => .ite (fun _ => ?_) fun _ => .pure trivial
  -- the octets that tell a file from a folder
  refine (opCheckChars_yields hadvance _).bind fun r _ => .ite (fun _ => .pure trivial) fun _ => ?_
  exact (opCheckChars_yields hadvance _).bind fun r _ => .ite (fun _ => .pure trivial) fun _ => .pure trivial

theorem opParseVobjType_yields (h : s < data.length) :
    Yields (opParseVobjType data s) fun _ => True := by
  rw [opParseVobjType, peek_eq h, ok_bind]
  split
  · refine (opCheckChars_yields h.le _).bind fun r hr => ?_
    split
    · next hsome =>
      have h3 : s + 3 ≤ data.length := hr hsome
      simp only [opCheckChars_eq h3, ok_bind]
      split_ifs <;> exact .pure trivial
    · simp only [opCheckChars_eq (advance_forward h.le).2, ok_bind]
      split_ifs <;> exact .pure trivial
  · simp only [opCheckChars_eq h.le, ok_bind]
    split_ifs <;> exact .pure trivial

/-- `opExtractTag` moves forward and changes the type of the element at most. -/
theorem opExtractTag_yields (h : s < data.length) (handle : OpHandle)
    (element : ObexParseData) :
    Yields (opExtractTag data handle element s) fun r => s < r.2 ∧ r.2 ≤ data.length ∧
      r.1.object = element.object ∧ r.1.len = element.len := by
  have htype : Yields (opParseType data handle.type s) fun _ => True := by
    cases handle.type with
    | xmlObject => exact opParseXmlType_yields h.le
    | irdaObject => exact opParseVobjType_yields h
  have hskip : Yields (opSkipTag data handle.type s) (Forward data s) := by
    cases handle.type <;> exact skipWhile_forward _ h.le
  refine htype.bind fun obj _ => hskip.bind fun s' hs' => ?_
  -- the octet that ends the tag is passed over
  have hadvance : s < advance data s' := lt_advance_of_forward h hs'
  refine (opSkipBlank_forward (advance_forward hs'.2).2).bind fun s'' hs'' => .pure ?_
  refine ⟨hadvance.trans_le hs''.1, hs''.2, ?_, ?_⟩ <;> dsimp only <;> split <;> rfl

theorem opGetTag_yields (h : InMiddle data s₀ cur) (hstate : cur.handle.state = .inGetTag)
    (hlt : cur.s < data.length) : Yields (opGetTag data cur) (Good data s₀ cur) := by
  refine (opExtractTag_yields hlt cur.handle cur.element).bind ?_
  rintro ⟨element, s⟩ ⟨hs, hle, hobject, hlen⟩
  have hpos : 0 < s := (Nat.zero_le _).trans_lt hs
  have hregion : element.object + element.len ≤ data.length := by rw [hobject, hlen]; exact h.region
  dsimp only
  split
  · split
    · -- the element begins behind the tag of the envelope
      refine (skipWhile_forward _ hle).bind fun s' hs' => .pure ?_
      have hpos' : 0 < s' := hpos.trans_le hs'.1
      have hlen' : s' + (data.length - s') % 65536 ≤ data.length := by
        have hmod := Nat.mod_le (data.length - s') 65536
        have hle' := hs'.2
        omega
      refine InMiddle.good ⟨?_, hs'.2, h.folds_lt, ⟨?_, le_rfl⟩, hlen', ?_, fun _ _ => hpos',
        fun _ => .inl hpos'⟩ ?_
      · exact ⟨OpState.noConfusion, OpState.noConfusion⟩
      · exact h.object.1.trans (h.object.2.trans (hs.le.trans hs'.1))
      · exact fun _ => OpState.noConfusion
      · exact rank_lt_of_lt h.state.2 hs'.2 (hs.trans_le hs'.1) (Nat.le_succ _)
    · have hfolds := h.folds_lt
      refine .pure (InMiddle.good ⟨?_, hle, Nat.mod_lt _ (by decide), ?_, hregion, ?_,
        fun _ _ => hpos, fun _ => .inl hpos⟩ ?_)
      · exact ⟨OpState.noConfusion, OpState.noConfusion⟩
      · rw [hobject]
        exact ⟨h.object.1, h.object.2.trans hs.le⟩
      · exact fun _ => OpState.noConfusion
      · exact rank_lt_of_lt h.state.2 hle hs (Nat.mod_le _ _)
  · -- the tag does not end in the data
    have hend : ∀ state : OpState, state = .error ∨ state = .inGetTag →
        Good data s₀ cur ⟨cur.handle.to state, element, s⟩ := by
      intro state hstate'
      refine InMiddle.good ⟨?_, hle, h.folds_lt, ?_, hregion, ?_, fun _ _ => hpos,
        fun _ => .inl hpos⟩ ?_
      · rcases hstate' with rfl | rfl <;> exact ⟨OpState.noConfusion, OpState.noConfusion⟩
      · rw [hobject]
        exact ⟨h.object.1, h.object.2.trans hs.le⟩
      · rcases hstate' with rfl | rfl <;> exact fun _ => OpState.noConfusion
      · exact rank_lt_of_lt h.state.2 hle hs (Nat.le_succ _)
    split
    · exact .pure (hend .error (.inl rfl))
    · have hto : cur.handle = cur.handle.to .inGetTag := by rw [OpHandle.to, ← hstate]
      rw [hto]
      exact .pure (hend .inGetTag (.inr rfl))

/-- The octet at which `opGetElement` stopped ends no element: it may begin an end tag, or the
parser goes on behind it. -/
theorem opGetElement_rest (h : InMiddle data s₀ cur) (hstate : cur.handle.state = .inGetElement)
    (hforward : Forward data cur.s s) (hlt : s < data.length)
    (hc : data[s] = cur.handle.type.tagEnd ∨ data[s] = cur.handle.type.tagEnd2)
    (hstart : data[s] ≠ cur.handle.type.tagStart) :
    Yields (do
      let s ← opSkipBlank data s
      let (handle, s) ← opOnEndTag data s cur.handle
      return ({ cur with handle := handle, s := s } : Cursor)) (Good data s₀ cur) := by
  have hpos : cur.handle.type = .xmlObject → 0 < cur.s := fun hxml =>
    h.behind hxml (.inr hstate)
  -- either blanks are skipped, or an XML object has its slash or bracket here
  have hskip : Yields (opSkipBlank data s) fun s' => Forward data s s' ∧
      (s < s' ∨ s' = s ∧ cur.handle.type = .xmlObject) := by
    cases htype : cur.handle.type with
    | irdaObject =>
      rw [htype] at hc
      refine (opSkipBlank_progress hlt.le ?_).mono fun s' hs' => ⟨⟨hs'.1.le, hs'.2⟩, .inl hs'.1⟩
      rw [List.getElem?_eq_getElem hlt]
      exact hc.imp (congrArg some) (congrArg some)
    | xmlObject =>
      refine (opSkipBlank_forward hlt.le).mono fun s' hs' => ⟨hs', ?_⟩
      rcases Nat.lt_or_eq_of_le hs'.1 with hmoved | heq
      · exact .inl hmoved
      · exact .inr ⟨heq.symm, rfl⟩
  refine hskip.bind fun s₁ ⟨hs₁, hmoved⟩ => ?_
  have hle₁ := hforward.1.trans hs₁.1
  refine (opOnEndTag_yields hs₁.2 cur.handle fun hxml _ => (hpos hxml).trans_le hle₁).bind ?_
  rintro ⟨handle, s₂⟩ ⟨hs₂, rfl | ⟨rfl, hnext⟩⟩
  · refine .pure (InMiddle.good (h.move (hforward.trans (hs₁.trans hs₂)) rfl rfl rfl ?_ ?_ ?_) ?_)
    · exact ⟨OpState.noConfusion, OpState.noConfusion⟩
    · exact fun _ => OpState.noConfusion
    · rintro _ (htag | helem)
      · cases htag
      · cases helem
    · exact rank_lt_of_le h.state.2 (hle₁.trans hs₂.1) (by rw [hstate]; exact Nat.lt_add_of_pos_right Nat.two_pos)
  · have hprogress : cur.s < s₂ := by
      rcases hmoved with hmoved | ⟨rfl, hxml⟩
      · exact (hforward.1.trans_lt hmoved).trans_le hs₂.1
      · -- no start tag: the octet is no `<`
        have hno : ¬ AtStartTag data s₁ cur.handle.type := by
          rw [hxml]
          rintro ⟨hopen, -⟩
          rw [List.getElem?_eq_getElem hlt] at hopen
          rw [hxml] at hstart
          exact hstart (some.inj hopen)
        obtain rfl : s₂ = advance data s₁ := hnext.resolve_left hno
        exact hforward.1.trans_lt (lt_advance hlt)
    refine .pure (InMiddle.good (h.move (hforward.trans (hs₁.trans hs₂)) rfl rfl rfl ?_ ?_ ?_) ?_)
    · exact h.state
    · rw [hstate]
      exact fun _ => OpState.noConfusion
    · exact fun hxml _ => (hpos hxml).trans hprogress
    · exact rank_lt_of_lt h.state.2 hs₂.2 hprogress (Nat.le_succ _)

theorem opGetElement_yields (h : InMiddle data s₀ cur) (hstate : cur.handle.state = .inGetElement)
    (hlt : cur.s < data.length) : Yields (opGetElement data cur) (Good data s₀ cur) := by
  refine (skipWhile_forward _ h.le).bind fun s₁ hs₁ => ?_
  refine (opSkipToMulChars_forward _ _ _ hs₁.2).bind fun s ⟨hs, hstop⟩ => ?_
  have hforward := hs₁.trans hs
  dsimp only
  split
  · next hne =>
    have hs' : s < data.length := lt_of_le_of_ne hforward.2 hne
    have hc := hstop data[s] (List.getElem?_eq_getElem hs')
    rw [peek_eq hs', ok_bind]
    split
    · next hstart =>
      refine .pure (InMiddle.good (h.move hforward rfl rfl rfl ?_ ?_ ?_) ?_)
      · exact ⟨OpState.noConfusion, OpState.noConfusion⟩
      · intro hxml _
        rw [List.getElem?_eq_getElem hs', hstart, hxml]
        rfl
      · rintro _ (htag | helem)
        · cases htag
        · cases helem
      · exact rank_lt_of_le h.state.2 hforward.1 (by rw [hstate]; exact Nat.lt_add_one _)
    · next hstart =>
      rw [opCheckChars_eq hs'.le, ok_bind]
      refine .ite (fun _ => ?_) (fun _ => ?_)
      · refine .pure (InMiddle.good (h.move hforward rfl rfl rfl ?_ ?_ ?_) ?_)
        · exact ⟨OpState.noConfusion, OpState.noConfusion⟩
        · exact fun _ => OpState.noConfusion
        · rintro _ (htag | helem)
          · cases htag
          · cases helem
        · exact rank_lt_of_le h.state.2 hforward.1 (by rw [hstate]; exact Nat.lt_add_of_pos_right Nat.two_pos)
      · exact opGetElement_rest h hstate hforward hs' (hc.resolve_left hstart) hstart
  · next hend =>
    obtain rfl : s = data.length := of_not_not hend
    refine .pure (InMiddle.good (h.move hforward rfl rfl rfl ?_ ?_ ?_) ?_)
    · rw [hstate]
      exact ⟨OpState.noConfusion, OpState.noConfusion⟩
    · rw [hstate]
      exact fun _ => OpState.noConfusion
    · exact fun _ _ => (Nat.zero_le _).trans_lt hlt
    · exact rank_lt_of_lt h.state.2 hforward.2 hlt (Nat.le_succ _)

theorem opTrim_yields {p s : ℕ} (hps : p ≤ s) (hlt : s < data.length) :
    Yields (opTrim data p s) fun s' => p ≤ s' ∧ s' ≤ s := by
  induction s with
  | zero =>
    rw [opTrim, if_pos (Nat.le_zero.mp hps)]
    exact .ok ⟨hps, le_rfl⟩
  | succ s ih =>
    rw [opTrim]
    refine .ite (fun heq => .ok ⟨heq.ge, le_rfl⟩) (fun hne => ?_)
    rw [peek_eq hlt, ok_bind]
    have hps' : p ≤ s := by omega
    refine .ite (fun _ => ?_) (fun _ => .pure ⟨hps, le_rfl⟩)
    exact (ih hps' (by omega)).mono fun s' hs' => ⟨hs'.1, hs'.2.trans (Nat.le_succ s)⟩

theorem retreatIf_yields {p s : ℕ} (hps : p ≤ s) {b : Bool} (hne : b → p ≠ s) :
    Yields (retreatIf b s) fun s' => p ≤ s' ∧ s' ≤ s := by
  refine .ite (fun hb => ?_) (fun _ => .ok ⟨hps, le_rfl⟩)
  have hlt : p < s := lt_of_le_of_ne hps (hne hb)
  rw [retreat, if_neg (by omega)]
  exact .ok (by omega)

theorem opLastOctet_yields {p s : ℕ} (type : OpType) (hps : p ≤ s) (hlt : s < data.length) :
    Yields (opLastOctet data type p s) fun s' => p ≤ s' ∧ s' ≤ data.length := by
  cases type with
  | irdaObject => exact (opTrim_yields hps hlt).mono fun s' hs' => ⟨hs'.1, hs'.2.trans hlt.le⟩
  | xmlObject =>
    rw [opLastOctet, peek_eq (hps.trans_lt hlt), ok_bind]
    refine .ite (fun _ => ?_) (fun _ => ?_)
    · exact (skipWhile_forward _ hlt.le).mono fun s' hs' => ⟨hps.trans hs'.1, hs'.2⟩
    · rw [peek_eq hlt, ok_bind]
      refine (retreatIf_yields hps fun hb => (of_decide_eq_true hb).2).bind fun s₁ hs₁ => ?_
      have hlt₁ : s₁ < data.length := hs₁.2.trans_lt hlt
      rw [peek_eq hlt₁, ok_bind]
      exact (retreatIf_yields hs₁.1 fun hb => (of_decide_eq_true hb).2).mono
        fun s' hs' => ⟨hs'.1, hs'.2.trans hlt₁.le⟩

theorem opNoTag_yields (type : OpType) {p : ℕ} (hlt : p < data.length) :
    Yields (opNoTag data type p) fun _ => True := by
  cases type with
  | irdaObject => exact .pure trivial
  | xmlObject =>
    rw [opNoTag, peek_eq hlt, ok_bind]
    exact .pure trivial

theorem opHandleEnd_yields (h : InMiddle data s₀ cur) (hstate : cur.handle.state = .inEndTag)
    (hlt : cur.s < data.length) : Yields (opHandleEnd data cur) (Good data s₀ cur) := by
  have hfolds := h.folds_lt
  refine .ite (fun hfolded => ?_) (fun hdone => ?_)
  · -- the end of a folded element
    dsimp only at hfolded
    refine .pure (InMiddle.good ⟨?_, h.le, ?_, h.object, h.region, ?_, ?_, ?_⟩ ?_)
    · exact ⟨OpState.noConfusion, OpState.noConfusion⟩
    · exact (Nat.sub_le _ _).trans_lt hfolds
    · exact fun _ => OpState.noConfusion
    · exact fun hxml _ => (h.unfolded hxml).resolve_right (by omega)
    · exact fun hxml => .inl ((h.unfolded hxml).resolve_right (by omega))
    · refine rank_lt_of_le h.state.2 le_rfl ?_
      rw [hstate]
      simp only [OpHandle.to, OpState.weight]
      omega
  · have hzero : cur.handle.folds - 1 = 0 := of_not_not hdone
    refine (opLastOctet_yields _ h.object.2 hlt).bind fun s₁ hs₁ => ?_
    have hadvance := advance_forward hs₁.2
    have hpos : 0 < advance data s₁ :=
      lt_advance_of_forward ((Nat.zero_le _).trans_lt hlt) ⟨Nat.zero_le _, hs₁.2⟩
    refine (opSkipBlank_forward hadvance.2).bind fun s₂ hs₂ => ?_
    refine (opNoTag_yields _ (h.object.2.trans_lt hlt)).bind fun skip _ => ?_
    -- wherever the parser goes on, the element lies in front of it
    have hended : ∀ s, Forward data (advance data s₁) s → Good data s₀ cur
        ⟨OpHandle.to { cur.handle with folds := cur.handle.folds - 1 } .ended,
          { cur.element with
            len := (advance data s₁ - cur.element.object) % 65536
            fragment := .full }, s⟩ := by
      intro s hs
      have hobject : cur.element.object ≤ advance data s₁ := hs₁.1.trans hadvance.1
      have hregion : cur.element.object + (advance data s₁ - cur.element.object) % 65536 ≤ s := by
        have hmod := Nat.mod_le (advance data s₁ - cur.element.object) 65536
        have hle := hs.1
        omega
      refine ⟨⟨hs.2, ?_, OpState.noConfusion, fun _ => ?_, fun _ => hzero, ?_, ?_, ?_⟩, ?_, ?_⟩
      · exact (Nat.sub_le _ _).trans_lt hfolds
      · exact ⟨h.object.1, hobject.trans hs.1, by simpa [OpHandle.to] using hregion⟩
      · exact fun _ => OpState.noConfusion
      · exact fun _ _ => hpos.trans_le hs.1
      · exact fun _ => .inr hzero
      · exact OpState.noConfusion
      · exact rank_of_ended rfl h.state.2
    cases skip with
    | true =>
      refine (skipWhile_forward _ hs₂.2).bind fun s₃ hs₃ => .pure (hended _ ?_)
      exact (hs₂.trans hs₃).trans (advance_forward hs₃.2)
    | false => exact .pure (hended _ hs₂)

/-! ### Beginning an entry -/

/-- Line breaks, followed by tabs and spaces, and nothing else. -/
def Blank (text : List Char) : Prop :=
  (text.dropWhile fun c => c = '\n' ∨ c = '\r').dropWhile (fun c => c = '\t' ∨ c = ' ') = []

instance (text : List Char) : Decidable (Blank text) := inferInstanceAs (Decidable (_ = _))

theorem drop_length_takeWhile (p : Char → Bool) (l : List Char) :
    l.drop (l.takeWhile p).length = l.dropWhile p := by
  have happend := takeWhile_append_dropWhile (p := p) (l := l)
  calc l.drop (l.takeWhile p).length
      = (l.takeWhile p ++ l.dropWhile p).drop (l.takeWhile p).length := by rw [happend]
    _ = l.dropWhile p := drop_left

/-- `opSkipBlank` reaches the end of the data exactly if it passes over blanks only. -/
theorem opSkipBlank_yields (h : s ≤ data.length) :
    Yields (opSkipBlank data s) fun s' => Forward data s s' ∧
      (s' = data.length ↔ Blank (data.drop s)) := by
  have hcrlf := add_length_takeWhile_le (fun c => c = '\n' ∨ c = '\r') h
  rw [opSkipBlank, opSkipCRLF, opSkipChars, skipWhile_eq _ h, ok_bind, opSkipSpace,
    opSkipChars, skipWhile_eq _ hcrlf]
  refine .ok ⟨⟨by omega, add_length_takeWhile_le _ hcrlf⟩, ?_⟩
  -- what is left behind the spaces has no octets exactly at the end
  rw [Blank, ← drop_length_takeWhile _ (data.drop s), drop_drop, ← drop_length_takeWhile,
    drop_drop, drop_eq_nil_iff]
  have hspace := add_length_takeWhile_le (fun c => c = '\t' ∨ c = ' ') hcrlf
  omega

/-- An entry begins well if an octet other than blanks is left. -/
theorem opHandleNewEntry_yields (hstate : cur.handle.state = .newEntry)
    (hfolds : cur.handle.folds = 0) (hle : cur.s ≤ data.length)
    (hblank : ¬ Blank (data.drop cur.s)) :
    Yields (opHandleNewEntry data cur) (Good data cur.s cur) := by
  refine (opSkipBlank_yields hle).bind fun s ⟨hs, hiff⟩ => ?_
  have hlt : s < data.length := lt_of_le_of_ne hs.2 (mt hiff.mp hblank)
  have hregion : s + (data.length - s) % 65536 ≤ data.length := by
    have hmod := Nat.mod_le (data.length - s) 65536
    omega
  -- the entry is begun in a state of the middle
  have hbegun : ∀ state : OpState, state = .inStartTag ∨ state = .error ∨ state = .inGetElement →
      (cur.handle.type = .xmlObject → state = .inStartTag → data[s]? = some '<') →
      (cur.handle.type = .xmlObject → state ≠ .inGetElement) →
        Good data cur.s cur ⟨cur.handle.to state, opAddElement .partialStart
          cur.handle.type.toObject s (data.length - s), s⟩ := by
    intro state hmem hstart helem
    refine InMiddle.good ⟨?_, hs.2, ?_, ⟨hs.1, le_rfl⟩, hregion, hstart, ?_, ?_⟩ ?_
    · rcases hmem with rfl | rfl | rfl <;> exact ⟨OpState.noConfusion, OpState.noConfusion⟩
    · exact hfolds.trans_lt (by decide)
    · rintro hxml (rfl | rfl)
      · rcases hmem with hmem | hmem | hmem <;> cases hmem
      · exact absurd rfl (helem hxml)
    · exact fun _ => .inr hfolds
    · refine rank_lt_of_le (by simp [hstate]) hs.1 ?_
      rw [hstate]
      rcases hmem with rfl | rfl | rfl <;>
        simp only [OpHandle.to, OpState.weight] <;> omega
  rw [peek_eq hlt, ok_bind]
  cases htype : cur.handle.type with
  | xmlObject =>
    rw [htype] at hbegun
    dsimp only
    split
    · next hopen =>
      refine .pure (hbegun _ (.inl rfl) (fun _ _ => ?_) fun _ => OpState.noConfusion)
      rw [List.getElem?_eq_getElem hlt, hopen]
    · exact .pure (hbegun _ (.inr (.inl rfl)) (fun _ => OpState.noConfusion)
        fun _ => OpState.noConfusion)
  | irdaObject =>
    rw [htype] at hbegun
    dsimp only
    split
    · exact .pure (hbegun _ (.inl rfl) OpType.noConfusion OpType.noConfusion)
    · exact .pure (hbegun _ (.inr (.inr rfl)) OpType.noConfusion OpType.noConfusion)

/-- An entry that begins in front of blanks only looks behind the end of the data. -/
theorem opHandleNewEntry_outside (hle : cur.s ≤ data.length) (hblank : Blank (data.drop cur.s)) :
    opHandleNewEntry data cur = .error .outside := by
  obtain ⟨s, hskip, -, hiff⟩ := opSkipBlank_yields hle
  obtain rfl := hiff.mpr hblank
  have hpeek : peek data data.length = .error .outside := by
    rw [peek, List.getElem?_eq_none le_rfl]
  rw [opHandleNewEntry, hskip, ok_bind, hpeek]
  rfl

/-! ### Whole entries -/

/-- A turn in the middle of an entry. -/
theorem opTurn_yields (h : InData data s₀ cur) (hnew : cur.handle.state ≠ .newEntry) :
    opTurn data cur = .ok none ∨ ∃ cur', opTurn data cur = .ok (some cur') ∧
      (InData data s₀ cur' ∧ cur'.handle.state ≠ .newEntry) ∧ rank data cur' < rank data cur := by
  have hsome : ∀ {x : Except Fault Cursor}, Yields x (Good data s₀ cur) →
      ∃ cur', some <$> x = .ok (some cur') ∧
        (InData data s₀ cur' ∧ cur'.handle.state ≠ .newEntry) ∧ rank data cur' < rank data cur := by
    rintro _ ⟨cur', rfl, hgood, hne, hrank⟩
    exact ⟨cur', rfl, ⟨hgood, hne⟩, hrank⟩
  rw [opTurn]
  split
  · exact .inl rfl
  · next hne =>
    have hlt : cur.s < data.length := lt_of_le_of_ne h.le hne
    have hmid (hended : cur.handle.state ≠ .ended) := h.inMiddle ⟨hnew, hended⟩
    cases hstate : cur.handle.state with
    | newEntry => exact absurd hstate hnew
    | inStartTag => exact .inr (hsome (opGetProp_yields (hmid (by simp [hstate])) hstate hlt))
    | inGetTag => exact .inr (hsome (opGetTag_yields (hmid (by simp [hstate])) hstate hlt))
    | inGetElement => exact .inr (hsome (opGetElement_yields (hmid (by simp [hstate])) hstate hlt))
    | inEndTag => exact .inr (hsome (opHandleEnd_yields (hmid (by simp [hstate])) hstate hlt))
    | ended => exact .inl rfl
    | error => exact .inl rfl

/-- The end tags behind an element are passed over. -/
theorem opEndTagLoop_yields (type : OpType) (hle : s ≤ data.length)
    (hpos : type = .xmlObject → 0 < s) :
    Yields (Lib.loop .endless (opEndTagTurn data type) (data.length + 1) s) (Forward data s) := by
  refine (Lib.loop_spec (Forward data s) (fun s' => data.length - s') ?_
    ⟨le_rfl, hle⟩ (by omega)).mono fun s' h => h.1
  intro s' hs'
  rw [opEndTagTurn, opCheckEndTag_eq hs'.2 _ fun hxml _ => (hpos hxml).trans_le hs'.1, ok_bind]
  by_cases hend : AtEndTag data s' type
  · have hlt : s' < data.length := by
      by_contra hge
      cases type <;> simp [AtEndTag, List.getElem?_eq_none (Nat.le_of_not_lt hge),
        drop_eq_nil_of_le (Nat.le_of_not_lt hge)] at hend
    obtain ⟨s₁, hskip, hs₁⟩ := skipWhile_forward (fun d => d ≠ type.tagEnd) hs'.2
    refine .inr ⟨advance data s₁, ?_, ?_, ?_⟩
    · rw [opSkipToChar, hskip, decide_eq_true hend]
      rfl
    · exact (hs'.trans hs₁).trans (advance_forward hs₁.2)
    · have hlt' := lt_advance_of_forward hlt hs₁
      have hle' := (advance_forward hs₁.2).2
      omega
  · rw [decide_eq_false hend]
    exact .inl rfl

/-- What is known when an entry is done: unless it is in error, its element lies in front of the
pointer, and the next entry finds the state it needs. -/
structure Done (data : List Char) (s₀ : ℕ) (cur : Cursor) : Prop where
  forward : Forward data s₀ cur.s
  region : cur.handle.state ≠ .error →
    s₀ ≤ cur.element.object ∧ cur.element.object + cur.element.len ≤ cur.s
  folds : cur.handle.state = .newEntry → cur.handle.folds = 0

theorem opGetNextElement_yields {handle : OpHandle} (hstate : handle.state = .newEntry)
    (hfolds : handle.folds = 0) (hlt : s < data.length) (hblank : ¬ Blank (data.drop s)) :
    Yields (opGetNextElement data handle s) (Done data s) := by
  have hloop : Yields (Lib.loop .endless (opTurn data) (1100 * (data.length + 1))
      ⟨handle, ⟨.full, .unknown, 0, 0⟩, s⟩) fun cur =>
        (InData data s cur ∧ cur.handle.state ≠ .newEntry) ∧ opTurn data cur = .ok none := by
    have hfirst : Yields (opHandleNewEntry data ⟨handle, ⟨.full, .unknown, 0, 0⟩, s⟩)
        (Good data s ⟨handle, ⟨.full, .unknown, 0, 0⟩, s⟩) :=
      opHandleNewEntry_yields hstate hfolds hlt.le hblank
    obtain ⟨cur, hbegin, hdata, hne, hrank⟩ := hfirst
    have hturn : opTurn data ⟨handle, ⟨.full, .unknown, 0, 0⟩, s⟩ = .ok (some cur) := by
      rw [opTurn, if_neg hlt.ne]
      simp only [hstate]
      rw [hbegin]
      rfl
    rw [show 1100 * (data.length + 1) = 1100 * data.length + 1099 + 1 from rfl, loop_turn hturn]
    refine Lib.loop_spec _ (rank data) (fun cur h => opTurn_yields h.1 h.2) ⟨hdata, hne⟩ ?_
    refine hrank.trans_le ?_
    rw [rank, if_neg (by simp [hstate])]
    simp only [hfolds, hstate, OpState.weight]
    omega
  refine hloop.bind fun cur ⟨⟨hdata, hne⟩, hstop⟩ => ?_
  obtain ⟨hge, hobject, hregion⟩ := hdata.element hne
  refine .ite (fun hended => ?_) (fun hended => ?_)
  · rw [if_pos hended] at hregion
    refine (opEndTagLoop_yields _ hdata.le fun hxml =>
      hdata.behind hxml (.inr (.inr hended))).bind fun s₁ hs₁ => ?_
    refine (opSkipJunk_forward hs₁.2).bind fun s₂ hs₂ => .pure ⟨?_, fun _ => ?_, fun _ => ?_⟩
    · exact ⟨hge.trans (hobject.trans (hs₁.1.trans hs₂.1)), hs₂.2⟩
    · exact ⟨hge, hregion.trans (hs₁.1.trans hs₂.1)⟩
    · exact hdata.folds_zero (.inr hended)
  · rw [if_neg hended] at hregion
    refine (opSkipJunk_forward hdata.le).bind fun s₁ hs₁ => .pure ⟨?_, fun herror => ?_, ?_⟩
    · exact ⟨hge.trans (hobject.trans hs₁.1), hs₁.2⟩
    · -- the loop has stopped at the end of the data
      have hend : cur.s = data.length := by
        by_contra hne'
        rw [opTurn, if_neg hne'] at hstop
        dsimp only [OpHandle.to] at herror
        revert hstop
        cases hstate : cur.handle.state with
        | ended => exact absurd hstate hended
        | error => exact absurd hstate herror
        | newEntry => exact map_some_ne _
        | inStartTag => exact map_some_ne _
        | inGetTag => exact map_some_ne _
        | inGetElement => exact map_some_ne _
        | inEndTag => exact map_some_ne _
      exact ⟨hge, hregion.trans (hend.ge.trans hs₁.1)⟩
    · exact fun hnew => absurd hnew hne

/-! ### The list of elements -/

/-- What the loop of `ObexParseCreateTree` keeps. -/
structure Listed (data : List Char) (p : Parse) : Prop where
  le : p.s ≤ data.length
  folds : p.handle.state = .newEntry → p.handle.folds = 0
  length_le : p.elements.length ≤ obexParseMaxElements
  before : ∀ el ∈ p.elements, el.object + el.len ≤ p.s
  sorted : p.elements.Pairwise fun el el' => el.object + el.len ≤ el'.object

theorem parseTurn_yields {p : Parse} (h : Listed data p) (hcont : p.Continues data)
    (hblank : ¬ Blank (data.drop p.s)) :
    ∃ p', parseTurn data p = .ok (some p') ∧ Listed data p' ∧
      (p'.handle.state = .error ∨ p'.elements.length = p.elements.length + 1) := by
  obtain ⟨hne, hstate, hlen⟩ := hcont
  obtain ⟨cur, hnext, hdone⟩ := opGetNextElement_yields hstate (h.folds hstate)
    (lt_of_le_of_ne h.le hne) hblank
  have hturn : parseTurn data p = .ok (some ⟨cur.handle, cur.s,
      if cur.handle.state ≠ .error then p.elements ++ [cur.element] else p.elements⟩) := by
    rw [parseTurn, if_pos ⟨hne, hstate, hlen⟩, hnext]
    rfl
  refine ⟨_, hturn, ?_⟩
  have hbefore : ∀ el ∈ p.elements, el.object + el.len ≤ cur.s := fun el hel =>
    (h.before el hel).trans hdone.forward.1
  by_cases herror : cur.handle.state = .error
  · rw [if_neg (not_not_intro herror)]
    exact ⟨⟨hdone.forward.2, hdone.folds, h.length_le, hbefore, h.sorted⟩, .inl herror⟩
  · obtain ⟨hobject, hregion⟩ := hdone.region herror
    rw [if_pos herror]
    refine ⟨⟨hdone.forward.2, hdone.folds, ?_, fun el hel => ?_, ?_⟩, .inr (by simp)⟩
    · rw [length_append]
      exact hlen
    · rcases mem_append.mp hel with hel | hel
      · exact hbefore el hel
      · rw [mem_singleton.mp hel]
        exact hregion
    · refine pairwise_append.mpr ⟨h.sorted, pairwise_singleton _ _, fun el hel el' hel' => ?_⟩
      rw [mem_singleton.mp hel']
      exact (h.before el hel).trans hobject

theorem parseStart_yields (data : List Char) (objType : ObexParseObject) :
    Yields (parseStart data objType) (Listed data) := by
  refine (skipWhile_forward _ (Nat.zero_le _)).bind fun s hs => ?_
  rw [opCheckStartTag_eq hs.2, ok_bind]
  by_cases hstart : AtStartTag data s (startHandle objType).type
  · rw [decide_eq_true hstart]
    exact .pure ⟨hs.2, fun _ => rfl, Nat.zero_le _, by simp, List.Pairwise.nil⟩
  · rw [decide_eq_false hstart]
    refine (skipWhile_forward _ (Nat.zero_le _)).bind fun s₁ hs₁ => .pure ?_
    refine ⟨hs₁.2, fun _ => rfl, by simp [obexParseMaxElements], ?_, pairwise_singleton _ _⟩
    intro el hel
    rw [mem_singleton.mp hel]
    simp only [opAddElement, Nat.zero_add]
    exact Nat.mod_le _ _

/-- Whenever `ObexParseCreateTree` begins another entry, an octet other than blanks is left. -/
def EntriesVisible (data : List Char) (objType : ObexParseObject) : Prop :=
  ∀ p₀ p, parseStart data objType = .ok p₀ → Turns (parseTurn data) p₀ p →
    p.Continues data → ¬ Blank (data.drop p.s)

/-- The object is parsed to the end without a look outside of the data, and the listed elements
are at most `OBEX_PARSE_MAX_ELEMENTS` parts of the data, one behind the other. -/
def Safe (data : List Char) (objType : ObexParseObject) : Prop :=
  Yields (obexParseCreateTree data objType) fun (_, tree) => ∀ elements, tree = some elements →
    elements.length ≤ obexParseMaxElements ∧
      (∀ el ∈ elements, el.object + el.len ≤ data.length) ∧
      elements.Pairwise fun el el' => el.object + el.len ≤ el'.object

/-- An entry that begins in front of blanks only stops the parser. -/
theorem parseTurn_outside {p : Parse} (hle : p.s ≤ data.length) (hcont : p.Continues data)
    (hblank : Blank (data.drop p.s)) : parseTurn data p = .error .outside := by
  have hturn : opTurn data ⟨p.handle, ⟨.full, .unknown, 0, 0⟩, p.s⟩ = .error .outside := by
    rw [opTurn, if_neg hcont.1]
    simp only [hcont.2.1]
    rw [opHandleNewEntry_outside hle hblank]
    rfl
  have hloop : Lib.loop .endless (opTurn data) (1100 * (data.length + 1))
      ⟨p.handle, ⟨.full, .unknown, 0, 0⟩, p.s⟩ = .error .outside :=
    loop_error hturn (1100 * data.length + 1099)
  rw [parseTurn, if_pos hcont, opGetNextElement, hloop]
  rfl

theorem Listed.turns {p₀ p : Parse} (h : Listed data p₀) (hturns : Turns (parseTurn data) p₀ p) :
    Listed data p := by
  induction hturns with
  | refl => exact h
  | @tail p p' _ hturn ih =>
    by_cases hcont : p.Continues data
    · by_cases hblank : Blank (data.drop p.s)
      · rw [parseTurn_outside ih.le hcont hblank] at hturn
        cases hturn
      · obtain ⟨p'', hturn', hlisted, -⟩ := parseTurn_yields ih hcont hblank
        rw [hturn'] at hturn
        obtain rfl : p'' = p' := some.inj (Except.ok.inj hturn)
        exact hlisted
    · rw [parseTurn, if_neg hcont] at hturn
      cases hturn

/-- The loop of `ObexParseCreateTree` ends if all entries are visible. -/
theorem parseLoop_yields {p₀ : Parse} (h : Listed data p₀)
    (hvisible : ∀ p, Turns (parseTurn data) p₀ p → p.Continues data →
      ¬ Blank (data.drop p.s)) :
    Yields (Lib.loop .endless (parseTurn data) (obexParseMaxElements + 1) p₀) (Listed data) := by
  have hloop : Yields (Lib.loop .endless (parseTurn data) (obexParseMaxElements + 1) p₀) fun p =>
      Turns (parseTurn data) p₀ p ∧ parseTurn data p = .ok none := by
    refine Lib.loop_spec _ (fun p =>
      if p.handle.state = .newEntry then obexParseMaxElements - p.elements.length else 0) ?_ .refl ?_
    · intro p hturns
      by_cases hcont : p.Continues data
      · obtain ⟨p', hturn, -, hnext⟩ := parseTurn_yields (h.turns hturns) hcont (hvisible p hturns hcont)
        refine .inr ⟨p', hturn, hturns.tail hturn, ?_⟩
        obtain ⟨-, hstate, hlen⟩ := hcont
        rw [if_pos hstate]
        rcases hnext with herror | hlen'
        · rw [if_neg (by simp [herror])]
          omega
        · split <;> omega
      · rw [parseTurn, if_neg hcont]
        exact .inl rfl
    · split
      · exact Nat.lt_succ_of_le (Nat.sub_le _ _)
      · exact Nat.succ_pos _
  exact hloop.mono fun p hp => h.turns hp.1

/-- **Safety.** The parser is safe exactly if no entry begins in front of blanks only. -/
theorem safe_iff (data : List Char) {objType : ObexParseObject} (hunknown : objType ≠ .unknown)
    (hvobj : objType ≠ .vobjElement) (hxml : objType ≠ .xmlElement) :
    Safe data objType ↔ EntriesVisible data objType := by
  obtain ⟨p₀, hp₀, hlisted⟩ := parseStart_yields data objType
  have hparsed : ¬ (objType = .vobjElement ∨ objType = .xmlElement ∨ objType = .unknown) := by
    rintro (h | h | h)
    · exact hvobj h
    · exact hxml h
    · exact hunknown h
  by_cases hnil : data = []
  · subst hnil
    refine ⟨fun _ p₀' p hp₀' hturns hcont => ?_, fun _ => ⟨_, rfl, fun _ h => by cases h⟩⟩
    obtain rfl : p₀ = p₀' := Except.ok.inj (hp₀.symm.trans hp₀')
    exact absurd (Nat.le_zero.mp (hlisted.turns hturns).le) hcont.1
  have hcreate : obexParseCreateTree data objType =
      (Lib.loop .endless (parseTurn data) (obexParseMaxElements + 1) p₀ >>= fun p =>
        .ok (p.status, some p.elements)) := by
    rw [obexParseCreateTree, if_neg hnil, if_neg hparsed, hp₀]
    rfl
  constructor
  · rintro ⟨r, hr, -⟩ p₀' p hp₀' hturns hcont hblank
    obtain rfl : p₀ = p₀' := Except.ok.inj (hp₀.symm.trans hp₀')
    rw [hcreate] at hr
    cases hloop : Lib.loop .endless (parseTurn data) (obexParseMaxElements + 1) p₀ with
    | error e =>
      rw [hloop] at hr
      cases hr
    | ok q =>
      -- the loop cannot get past the entry that begins in front of blanks
      obtain ⟨m, hm⟩ := loop_of_turns hturns hloop
      cases m with
      | zero => cases hm
      | succ m =>
        rw [loop_error (parseTurn_outside (hlisted.turns hturns).le hcont hblank)] at hm
        cases hm
  · intro hvisible
    rw [Safe, hcreate]
    refine (parseLoop_yields hlisted fun p => hvisible p₀ p hp₀).bind fun p hp => .ok ?_
    rintro elements ⟨⟩
    exact ⟨hp.length_le, fun el hel => (hp.before el hel).trans hp.le, hp.sorted⟩

/-- A folder listing with two files is parsed safely, so its entries are visible. -/
theorem entriesVisible_twoFiles :
    EntriesVisible "<f><a n=\"1\"/><b>2</b></f>\n".toList .xmlFolderList := by
  refine (safe_iff _ (by decide) (by decide) (by decide)).mp
    ⟨(.success, some [⟨.full, .xmlFoldedElement, 3, 10⟩, ⟨.full, .xmlFoldedElement, 13, 8⟩]),
      by decide, ?_⟩
  rintro elements ⟨⟩
  decide

/-- A fragment of a message that ends with its first line is read beyond its end. -/
theorem not_safe_of_line : ¬ Safe "N:x\n".toList .vobjBMsg := by
  have houtside : obexParseCreateTree "N:x\n".toList .vobjBMsg = .error .outside := by
    decide
  rintro ⟨r, hr, -⟩
  rw [houtside] at hr
  cases hr

end Cbps.ObexParse
