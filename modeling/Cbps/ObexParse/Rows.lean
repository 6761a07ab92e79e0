import Cbps.ObexParse.Markup
import Cbps.ObexParse.Safety

/-!
# The parser reads rows of tags

Read in the middle of an element, the parser sees a row of tags and does to its folds what
`Tag.count` says, one tag after the other. So an element ends with the tag that `tagsBehind` names
(`row_ends`), and if there is none the parser reads to the end of the data (`row_unended`).
-/

namespace Cbps.ObexParse

open Lib List Option

variable {data : List Char}

/-! ### What stands at a pointer -/

/-- From `s` on, the data is `l`. -/
def At (data : List Char) (s : ℕ) (l : List Char) : Prop := s ≤ data.length ∧ data.drop s = l

namespace At

variable {s : ℕ} {a l t : List Char} {c : Char}

theorem append (h : At data s (a ++ l)) : At data (s + a.length) l := by
  obtain ⟨hle, hdrop⟩ := h
  have hlen := congrArg List.length hdrop
  rw [length_drop, length_append] at hlen
  refine ⟨by omega, ?_⟩
  rw [← drop_drop, hdrop, drop_left]

theorem cons (h : At data s (c :: l)) : At data (s + 1) l := append (a := [c]) h

theorem length_eq (h : At data s l) : s + l.length = data.length := by
  rw [← h.2, length_drop]
  have hle := h.1
  omega

theorem lt (h : At data s (c :: l)) : s < data.length := by
  have hlen := h.length_eq
  rw [length_cons] at hlen
  omega

theorem getElem? (h : At data s (c :: l)) : data[s]? = some c := by
  rw [← List.head?_drop, h.2, List.head?_cons]

theorem peek (h : At data s (c :: l)) : peek data s = .ok c := by
  rw [ObexParse.peek, h.getElem?]

theorem advance (h : At data s (c :: l)) : advance data s = s + 1 := if_pos h.lt.ne

variable {p : Char → Bool}

/-- A loop passes over the octets that it skips and stops at the one that it does not. -/
theorem skipWhile (h : At data s (a ++ c :: l)) (ha : ∀ d ∈ a, p d = true)
    (hc : p c = false) : skipWhile data p s = .ok (s + a.length) := by
  rw [skipWhile_eq p h.1, h.2, takeWhile_append_of_pos ha,
    takeWhile_cons_of_neg (by rw [hc]; exact Bool.false_ne_true), append_nil]

theorem skipWhile_nil (h : At data s []) : ObexParse.skipWhile data p s = .ok s := by
  rw [skipWhile_eq p h.1, h.2]
  rfl

/-- A loop that stops at the octet behind a text leaves a text. -/
theorem skip_text (h : At data s (t ++ c :: l)) (ht : IsText t)
    (hc : p c = false) :
    ∃ s' t', ObexParse.skipWhile data p s = .ok s' ∧ s ≤ s' ∧ At data s' (t' ++ c :: l) ∧
      IsText t' := by
  have hsplit := takeWhile_append_dropWhile (p := p) (l := t)
  have hat : At data s (t.takeWhile p ++ (t.dropWhile p ++ c :: l)) := by
    rw [← List.append_assoc, hsplit]
    exact h
  refine ⟨_, _, ?_, Nat.le_add_right _ _, hat.append,
    fun d hd => ht d ((dropWhile_sublist p).subset hd)⟩
  cases hdrop : t.dropWhile p with
  | nil =>
    rw [hdrop] at hat
    exact hat.skipWhile (fun d => mem_takeWhile_imp) hc
  | cons d t' =>
    rw [hdrop] at hat
    refine hat.skipWhile (fun d => mem_takeWhile_imp) ?_
    have hhead := List.head?_dropWhile_not p t
    rw [hdrop] at hhead
    exact hhead

/-- Blanks end at the latest at the octet behind a text. -/
theorem skipBlank (h : At data s (t ++ c :: l)) (ht : IsText t)
    (hc : c = '<' ∨ c = '>' ∨ c = '/') :
    ∃ s' t', opSkipBlank data s = .ok s' ∧ s ≤ s' ∧ At data s' (t' ++ c :: l) ∧ IsText t' := by
  obtain ⟨s₁, t₁, hskip, hle, hat, ht₁⟩ := h.skip_text (p := fun x => x = '\n' ∨ x = '\r') ht
    (by rcases hc with rfl | rfl | rfl <;> decide)
  obtain ⟨s₂, t₂, hskip', hle', hat', ht₂⟩ := hat.skip_text (p := fun x => x = '\t' ∨ x = ' ') ht₁
    (by rcases hc with rfl | rfl | rfl <;> decide)
  refine ⟨s₂, t₂, ?_, hle.trans hle', hat', ht₂⟩
  rw [opSkipBlank, opSkipCRLF, opSkipChars, hskip]
  exact hskip'

/-- There are no blanks in front of an octet of a tag. -/
theorem skipBlank_cons (h : At data s (c :: l)) (hc : c = '<' ∨ c = '>' ∨ c = '/') :
    opSkipBlank data s = .ok s := by
  have hcrlf := skipWhile (a := []) (p := fun x => x = '\n' ∨ x = '\r') h (by simp)
    (by rcases hc with rfl | rfl | rfl <;> decide)
  have hspace := skipWhile (a := []) (p := fun x => x = '\t' ∨ x = ' ') h (by simp)
    (by rcases hc with rfl | rfl | rfl <;> decide)
  rw [opSkipBlank, opSkipCRLF, opSkipChars, hcrlf]
  exact hspace

end At

/-! ### One tag -/

/-- The handle in the middle of an element. -/
def reading (state : OpState) (folds : ℕ) : OpHandle := ⟨state, false, .xmlObject, folds⟩

variable (folds : ℕ) (el : ObexParseData) {s : ℕ} {a l t : List Char} {c d : Char}

theorem turns_of_eq {cur cur' : Cursor} {x : Except Fault Cursor}
    (hturn : opTurn data cur = some <$> x) (hx : x = .ok cur') :
    Turns (opTurn data) cur cur' := by
  refine .single ?_
  rw [hturn, hx]
  rfl

theorem opTurn_inStartTag (hlt : s < data.length) :
    opTurn data ⟨reading .inStartTag folds, el, s⟩ =
      some <$> opGetProp data ⟨reading .inStartTag folds, el, s⟩ := if_neg hlt.ne

theorem opTurn_inGetTag (hlt : s < data.length) :
    opTurn data ⟨reading .inGetTag folds, el, s⟩ =
      some <$> opGetTag data ⟨reading .inGetTag folds, el, s⟩ := if_neg hlt.ne

theorem opTurn_inGetElement (hlt : s < data.length) :
    opTurn data ⟨reading .inGetElement folds, el, s⟩ =
      some <$> opGetElement data ⟨reading .inGetElement folds, el, s⟩ := if_neg hlt.ne

theorem opTurn_inEndTag (hlt : s < data.length) :
    opTurn data ⟨reading .inEndTag folds, el, s⟩ =
      some <$> opHandleEnd data ⟨reading .inEndTag folds, el, s⟩ := if_neg hlt.ne

/-- The parser enters a start tag. -/
theorem startTag_turns (h : At data s ('<' :: c :: l)) (hc : c ≠ '/') :
    Turns (opTurn data) ⟨reading .inStartTag folds, el, s⟩
      ⟨reading .inGetTag folds, el, s + 1⟩ := by
  have hstart : AtStartTag data s .xmlObject := by
    refine ⟨h.getElem?, ?_⟩
    rw [h.cons.getElem?]
    exact fun heq => hc (some.inj heq)
  refine turns_of_eq (opTurn_inStartTag folds el h.lt) ?_
  rw [opGetProp, opCheckStartTag_eq h.1, ok_bind]
  change (if decide (AtStartTag data s .xmlObject) = true then _ else _) = _
  rw [decide_eq_true hstart]
  rfl

/-- The parser passes over the name in a start tag and counts the tag. -/
theorem getTag_turns (h : At data s (a ++ d :: (t ++ c :: l))) (ha : ∀ x ∈ a, x ≠ '>' ∧ x ≠ ' ')
    (hd : d = '>' ∨ d = ' ') (ht : IsText t) (hc : c = '<' ∨ c = '>' ∨ c = '/') :
    ∃ el' s' t', Turns (opTurn data) ⟨reading .inGetTag folds, el, s⟩
        ⟨reading .inGetElement ((folds + 1) % 256), el', s'⟩ ∧
      el'.object = el.object ∧ s < s' ∧ At data s' (t' ++ c :: l) ∧ IsText t' ∧
      t'.length ≤ t.length := by
  have hlt : s < data.length := by
    have hlen := h.length_eq
    rw [length_append, length_cons] at hlen
    omega
  obtain ⟨obj, hobj, -⟩ := opParseXmlType_yields h.1
  have hskip : opSkipTag data .xmlObject s = .ok (s + a.length) := by
    refine h.skipWhile (fun x hx => ?_) ?_
    · exact decide_eq_true (ha x hx)
    · rcases hd with rfl | rfl <;> decide
  obtain ⟨s', t', hblank, hle, hat, ht'⟩ := h.append.cons.skipBlank ht hc
  have hne : s' ≠ data.length := by
    have hlen := hat.length_eq
    rw [length_append, length_cons] at hlen
    omega
  refine ⟨if el.type = .xmlElement ∨ el.type = .vobjElement then { el with type := obj } else el,
    s', t', turns_of_eq (opTurn_inGetTag folds el hlt) ?_, ?_, by omega, hat, ht', ?_⟩
  · rw [opGetTag, opExtractTag]
    change (opParseXmlType data s >>= _) >>= _ = _
    rw [hobj, ok_bind]
    change (opSkipTag data .xmlObject s >>= _) >>= _ = _
    rw [hskip, ok_bind, h.append.advance, hblank]
    exact if_pos hne
  · split <;> rfl
  · have hlen := h.append.cons.length_eq
    have hlen' := hat.length_eq
    rw [length_append] at hlen hlen'
    omega

/-- Text in an element is passed over up to the next octet of a tag. -/
theorem skipElement (h : At data s (t ++ c :: l)) (ht : IsText t)
    (hc : c = '<' ∨ c = '>' ∨ c = '/') :
    ∃ s', opSkipSpace data s = .ok s' ∧
      opSkipToMulChars data s' '<' '>' '/' = .ok (s + t.length) := by
  obtain ⟨s', t', hskip, -, hat, ht'⟩ := h.skip_text (p := fun x => x = '\t' ∨ x = ' ') ht
    (by rcases hc with rfl | rfl | rfl <;> decide)
  have hmul := hat.skipWhile (p := fun x => x ≠ '<' ∧ x ≠ '>' ∧ x ≠ '/')
    (fun x hx => decide_eq_true (ht' x hx)) (by rcases hc with rfl | rfl | rfl <;> decide)
  have hlen := h.length_eq
  have hlen' := hat.length_eq
  rw [length_append] at hlen hlen'
  refine ⟨s', hskip, ?_⟩
  rw [opSkipToMulChars, hmul]
  congr 1
  omega

/-- The next tag begins. -/
theorem text_turns (h : At data s (t ++ '<' :: l)) (ht : IsText t) :
    Turns (opTurn data) ⟨reading .inGetElement folds, el, s⟩
      ⟨reading .inStartTag folds, el, s + t.length⟩ := by
  obtain ⟨s', hspace, hmul⟩ := skipElement h ht (.inl rfl)
  have hlt : s < data.length := lt_of_le_of_lt (Nat.le_add_right _ _) h.append.lt
  refine turns_of_eq (opTurn_inGetElement folds el hlt) ?_
  rw [opGetElement]
  change opSkipSpace data s >>= _ = _
  rw [hspace, ok_bind]
  change opSkipToMulChars data s' '<' '>' '/' >>= _ = _
  rw [hmul, ok_bind, if_pos h.append.lt.ne, h.append.peek]
  rfl

/-- At the end of a tag, an element that is not folded ends; in a folded one an end tag does. -/
theorem opGetElement_tagEnd (h : At data s (t ++ c :: l)) (ht : IsText t) (hc : c = '>' ∨ c = '/') :
    opGetElement data ⟨reading .inGetElement folds, el, s⟩ =
      if folds = 0 ∧ (c = '>' ∨ ['/', '>'] <+: data.drop (s + t.length)) then
        .ok ⟨reading .inEndTag folds, el, s + t.length⟩
      else (opOnEndTag data (s + t.length) (reading .inGetElement folds) >>= fun (handle, s) =>
        .ok ⟨handle, el, s⟩) := by
  obtain ⟨s', hspace, hmul⟩ := skipElement h ht (.inr hc)
  have hne : ¬ c = OpType.xmlObject.tagStart := by
    rcases hc with rfl | rfl <;> decide
  rw [opGetElement]
  change opSkipSpace data s >>= _ = _
  rw [hspace, ok_bind]
  change opSkipToMulChars data s' '<' '>' '/' >>= _ = _
  rw [hmul, ok_bind, if_pos h.append.lt.ne, h.append.peek, ok_bind]
  refine (if_neg hne).trans ?_
  rw [opCheckChars_eq h.append.1, ok_bind, h.append.skipBlank_cons (.inr hc), ok_bind]
  by_cases hslash : ['/', '>'] <+: data.drop (s + t.length)
  · simp only [OpType.tagEnd, OpType.tagEnd2, reading, hslash, if_true, isSome_some]
    rfl
  · simp only [OpType.tagEnd, OpType.tagEnd2, reading, hslash, if_false, isSome_none,
      Bool.false_eq_true]
    rfl

/-- A bracket that ends a tag is passed over in a folded element, and ends one that is not. -/
theorem bracket_turns (h : At data s (t ++ '>' :: l)) (ht : IsText t) :
    Turns (opTurn data) ⟨reading .inGetElement folds, el, s⟩
      (if folds = 0 then ⟨reading .inEndTag folds, el, s + t.length⟩
        else ⟨reading .inGetElement folds, el, s + t.length + 1⟩) := by
  have hlt : s < data.length := lt_of_le_of_lt (Nat.le_add_right _ _) h.append.lt
  refine turns_of_eq (opTurn_inGetElement folds el hlt) ?_
  rw [opGetElement_tagEnd folds el h ht (.inl rfl)]
  by_cases hfolds : folds = 0
  · rw [if_pos hfolds, if_pos ⟨hfolds, .inl rfl⟩]
  · have hend : ¬ AtEndTag data (s + t.length) .xmlObject := by
      rw [AtEndTag, h.append.getElem?]
      simp
    have hstart : ¬ AtStartTag data (s + t.length) .xmlObject := by
      rw [AtStartTag, h.append.getElem?]
      simp
    have hskip : opOnEndTag data (s + t.length) (reading .inGetElement folds) =
        .ok (reading .inGetElement folds, s + t.length + 1) := by
      rw [opOnEndTag, opCheckEndTag_eq h.append.1 _ (fun _ hslash => ?_)]
      · change (if decide (AtEndTag data (s + t.length) .xmlObject) = true then _ else _) = _
        rw [decide_eq_false hend, opCheckStartTag_eq h.append.1]
        change (if (!decide (AtStartTag data (s + t.length) .xmlObject)) = true then _ else _) = _
        rw [decide_eq_false hstart, h.append.advance]
        rfl
      · rw [h.append.getElem?] at hslash
        cases hslash
    rw [if_neg hfolds, if_neg fun hor => hfolds hor.1, hskip]
    rfl

/-- At an end tag a folded element is passed over up to `e`, where the bracket is. -/
theorem onEndTag_eq {state : OpState} {e : ℕ} (hcheck : opCheckEndTag data s .xmlObject = .ok true)
    (hskip : opSkipToChar data s '>' = .ok e) :
    opOnEndTag data s (reading state folds) = .ok (reading .inEndTag folds, if folds = 0 then s else e) := by
  rw [opOnEndTag]
  change (opCheckEndTag data s .xmlObject >>= _) = _
  rw [hcheck, ok_bind, if_pos rfl]
  by_cases hfolds : folds = 0
  · rw [if_pos hfolds]
    exact if_neg (not_not_intro hfolds)
  · rw [if_neg hfolds]
    refine (if_pos hfolds).trans ?_
    change (opSkipToChar data s '>' >>= _) = _
    rw [hskip]
    rfl

/-- The slash in front of the bracket is an end tag. -/
theorem slash_turns (h : At data s (t ++ '/' :: '>' :: l)) (ht : IsText t) (hs : 0 < s) :
    ∃ s' a, Turns (opTurn data) ⟨reading .inGetElement folds, el, s⟩
        ⟨reading .inEndTag folds, el, s'⟩ ∧
      At data s' (a ++ '>' :: l) ∧ '>' ∉ a ∧ (folds ≠ 0 → a = []) := by
  have hlt : s < data.length := lt_of_le_of_lt (Nat.le_add_right _ _) h.append.lt
  have hslash : ['/', '>'] <+: data.drop (s + t.length) := ⟨l, h.append.2.symm⟩
  have hend : AtEndTag data (s + t.length) .xmlObject :=
    .inl ⟨h.append.getElem?, .inr h.append.cons.getElem?⟩
  have hcheck : opCheckEndTag data (s + t.length) .xmlObject = .ok true := by
    rw [opCheckEndTag_eq h.append.1 _ (fun _ _ => Nat.add_pos_left hs _), decide_eq_true hend]
  have hget := opGetElement_tagEnd folds el h ht (.inr rfl)
  by_cases hfolds : folds = 0
  · rw [if_pos ⟨hfolds, .inr hslash⟩] at hget
    exact ⟨s + t.length, ['/'], turns_of_eq (opTurn_inGetElement folds el hlt) hget, h.append, by decide,
      fun hne => absurd hfolds hne⟩
  · have hskip : opSkipToChar data (s + t.length) '>' = .ok (s + t.length + 1) :=
      At.skipWhile (a := ['/']) h.append (by simp) (by decide)
    rw [if_neg fun hor => hfolds hor.1, onEndTag_eq folds hcheck hskip, if_neg hfolds] at hget
    exact ⟨s + t.length + 1, [], turns_of_eq (opTurn_inGetElement folds el hlt) hget, h.append.cons,
      not_mem_nil, fun _ => rfl⟩

variable {name : Name}

/-- The parser meets an end tag. -/
theorem closing_turns (h : At data s ((Tag.closing name).octets ++ l)) :
    ∃ s' a, Turns (opTurn data) ⟨reading .inStartTag folds, el, s⟩
        ⟨reading .inEndTag folds, el, s'⟩ ∧
      At data s' (a ++ '>' :: l) ∧ '>' ∉ a ∧ (folds ≠ 0 → a = []) := by
  have h : At data s ('<' :: '/' :: (name.val ++ '>' :: l)) := by
    simpa [Tag.octets] using h
  have hstart : ¬ AtStartTag data s .xmlObject := fun hat => hat.2 h.cons.getElem?
  have hend : AtEndTag data s .xmlObject := .inr ⟨h.getElem?, h.cons.getElem?⟩
  have hcheck : opCheckEndTag data s .xmlObject = .ok true := by
    rw [opCheckEndTag_eq h.1 _ (fun _ hslash => ?_), decide_eq_true hend]
    rw [h.getElem?] at hslash
    cases hslash
  have hget : opGetProp data ⟨reading .inStartTag folds, el, s⟩ =
      (opOnEndTag data s (reading .inStartTag folds) >>= fun (handle, s) =>
        .ok ⟨if handle.state = .inStartTag then handle.to .inGetElement else handle, el, s⟩) := by
    rw [opGetProp, opCheckStartTag_eq h.1, ok_bind]
    change (if decide (AtStartTag data s .xmlObject) = true then _ else _) = _
    rw [decide_eq_false hstart]
    rfl
  have hword : At data s (('<' :: '/' :: name.val) ++ '>' :: l) := h
  have hnotin : '>' ∉ '<' :: '/' :: name.val := by
    rintro (_ | ⟨_, _ | ⟨_, hmem⟩⟩)
    exact (name.property.1 _ hmem).2.1 rfl
  have hskip : opSkipToChar data s '>' = .ok (s + ('<' :: '/' :: name.val).length) :=
    hword.skipWhile (fun x hx => decide_eq_true fun heq => hnotin (heq ▸ hx)) (by decide)
  rw [onEndTag_eq folds hcheck hskip] at hget
  by_cases hfolds : folds = 0
  · rw [if_pos hfolds] at hget
    exact ⟨s, _, turns_of_eq (opTurn_inStartTag folds el h.lt) hget, hword, hnotin, fun hne => absurd hfolds hne⟩
  · rw [if_neg hfolds] at hget
    exact ⟨_, [], turns_of_eq (opTurn_inStartTag folds el h.lt) hget, hword.append, not_mem_nil, fun _ => rfl⟩

/-- An end tag takes one fold away. -/
theorem unfold_turns (h : At data s ('>' :: l)) (hfolds : ¬ folds ≤ 1) :
    Turns (opTurn data) ⟨reading .inEndTag folds, el, s⟩
      ⟨reading .inGetElement (folds - 1), el, s + 1⟩ := by
  have hbracket := bracket_turns (folds - 1) el (t := []) h (by simp [IsText])
  rw [if_neg (by omega)] at hbracket
  refine (turns_of_eq (opTurn_inEndTag folds el h.lt) ?_).trans hbracket
  rw [opHandleEnd]
  exact if_pos (show folds - 1 ≠ 0 by omega)

/-- An element without folds ends behind the tag. -/
theorem end_turns (h : At data s (a ++ '>' :: l)) (ha : '>' ∉ a) (hfolds : folds ≤ 1)
    (hobject : data[el.object]? = some '<') :
    ∃ s', opSkipBlank data (s + a.length + 1) = .ok s' ∧
      Turns (opTurn data) ⟨reading .inEndTag folds, el, s⟩ ⟨reading .ended 0,
        { el with len := (s + a.length + 1 - el.object) % 65536, fragment := .full }, s'⟩ := by
  have hlt : s < data.length := lt_of_le_of_lt (Nat.le_add_right _ _) h.append.lt
  have hpeek : peek data el.object = .ok '<' := by
    rw [peek, hobject]
  have hskip : opSkipToChar data s '>' = .ok (s + a.length) :=
    h.skipWhile (fun x hx => decide_eq_true fun heq => ha (heq ▸ hx)) (by decide)
  have hlast : opLastOctet data .xmlObject el.object s = .ok (s + a.length) := by
    rw [opLastOctet, hpeek, ok_bind, if_pos rfl, hskip]
  obtain ⟨s', hblank, -⟩ := opSkipBlank_forward h.append.cons.1
  refine ⟨s', hblank, turns_of_eq (opTurn_inEndTag folds el hlt) ?_⟩
  have hzero : folds - 1 = 0 := by omega
  rw [opHandleEnd]
  refine (if_neg (show ¬ folds - 1 ≠ 0 from not_not_intro hzero)).trans ?_
  change (opLastOctet data .xmlObject el.object s >>= _) = _
  rw [hlast, ok_bind, h.append.advance]
  change (opSkipBlank data (s + a.length + 1) >>= _) = _
  rw [hblank, ok_bind]
  change (opNoTag data .xmlObject el.object >>= _) = _
  rw [opNoTag, hpeek]
  change Except.ok (Cursor.mk (reading .ended (folds - 1)) _ _) = _
  rw [hzero]

/-- The parser enters an element: it passes over the name and counts the tag. -/
theorem enter_turns (h : At data s ('<' :: (name.val ++ (a ++ d :: (t ++ c :: l)))))
    (ha : ∀ x ∈ a, x ≠ '>' ∧ x ≠ ' ') (hd : d = '>' ∨ d = ' ') (ht : IsText t)
    (hc : c = '<' ∨ c = '>' ∨ c = '/') :
    ∃ el' s' t', Turns (opTurn data) ⟨reading .inStartTag folds, el, s⟩
        ⟨reading .inGetElement ((folds + 1) % 256), el', s'⟩ ∧
      el'.object = el.object ∧ s < s' ∧ At data s' (t' ++ c :: l) ∧ IsText t' ∧
      t'.length ≤ t.length := by
  obtain ⟨name, htext, hne, hblank⟩ := name
  obtain ⟨x, name', rfl⟩ := exists_cons_of_ne_nil hne
  have hfirst : x ≠ '/' := (htext x mem_cons_self).2.2
  have hat : At data (s + 1) ((x :: name' ++ a) ++ d :: (t ++ c :: l)) := by
    rw [List.append_assoc]
    exact h.cons
  have hall : ∀ y ∈ x :: name' ++ a, y ≠ '>' ∧ y ≠ ' ' := by
    intro y hy
    rcases mem_append.mp hy with hy | hy
    · exact ⟨(htext y hy).2.1, fun heq => hblank (heq ▸ hy)⟩
    · exact ha y hy
  obtain ⟨el', s', t', hturns, hobject, hlt, htext'⟩ := getTag_turns folds el hat hall hd ht hc
  exact ⟨el', s', t', (startTag_turns folds el h hfirst).trans hturns, hobject, by omega, htext'⟩

/-- A start tag with attributes is read up to its bracket. -/
theorem opening_turns {attrs : Text} (h : At data s ((Tag.opening name (some attrs)).octets ++ l)) :
    ∃ el' s', Turns (opTurn data) ⟨reading .inStartTag folds, el, s⟩
        (if (folds + 1) % 256 = 0 then ⟨reading .inEndTag ((folds + 1) % 256), el', s'⟩
          else ⟨reading .inGetElement ((folds + 1) % 256), el', s' + 1⟩) ∧
      el'.object = el.object ∧ At data s' ('>' :: l) := by
  have hat : At data s ('<' :: (name.val ++ ([] ++ ' ' :: (attrs.val ++ '>' :: l)))) := by
    simpa [Tag.octets, attrOctets] using h
  obtain ⟨el', s', t', henter, hobject, -, hat', ht', -⟩ :=
    enter_turns folds el hat (by simp) (.inr rfl) attrs.property (.inr (.inl rfl))
  exact ⟨el', _, henter.trans (bracket_turns _ el' hat' ht'), hobject, hat'.append⟩

/-- A tag that is closed at once is read up to its end. -/
theorem closed_turns {attrs : Text} (h : At data s ((Tag.closed name attrs).octets ++ l)) :
    ∃ el' s' a, Turns (opTurn data) ⟨reading .inStartTag folds, el, s⟩
        ⟨reading .inEndTag ((folds + 1) % 256), el', s'⟩ ∧
      el'.object = el.object ∧ At data s' (a ++ '>' :: l) ∧ '>' ∉ a ∧ ((folds + 1) % 256 ≠ 0 → a = []) := by
  have hat : At data s ('<' :: (name.val ++ ([] ++ ' ' :: (attrs.val ++ '/' :: '>' :: l)))) := by
    simpa [Tag.octets] using h
  obtain ⟨el', s₁, t₁, henter, hobject, hlt, hat₁, ht₁, -⟩ :=
    enter_turns folds el hat (by simp) (.inr rfl) attrs.property (.inr (.inr rfl))
  obtain ⟨s₂, a, hslash, hat₂, ha⟩ := slash_turns ((folds + 1) % 256) el' hat₁ ht₁ (Nat.zero_lt_of_lt hlt)
  exact ⟨el', s₂, a, henter.trans hslash, hobject, hat₂, ha⟩

/-- A tag without attributes is read up to the text behind it. -/
theorem plain_turns {text : Text} (ha : ∀ x ∈ a, x ≠ '>' ∧ x ≠ ' ')
    (h : At data s ('<' :: (name.val ++ (a ++ '>' :: (text.val ++ '<' :: l))))) :
    ∃ el' s' t', Turns (opTurn data) ⟨reading .inStartTag folds, el, s⟩
        ⟨reading .inGetElement ((folds + 1) % 256), el', s'⟩ ∧
      el'.object = el.object ∧ At data s' (t' ++ '<' :: l) ∧ IsText t' ∧ t'.length ≤ text.val.length := by
  obtain ⟨el', s', t', hturns, hobject, -, htext⟩ := enter_turns folds el h ha (.inl rfl) text.property (.inl rfl)
  exact ⟨el', s', t', hturns, hobject, htext⟩

/-! ### A row of tags -/

variable {folds} {tag : Tag} {text : Text} {more : List Char} {folds' : ℕ}

/-- A tag that does not end the element: the folds are those that `Tag.count` says. -/
theorem tag_turns (h : At data s (tag.octets ++ (text.val ++ more)))
    (hmore : (∃ l, more = '<' :: l) ∨ ∃ name, tag = .closing name)
    (hcount : tag.count folds = some folds') :
    ∃ el' s' t', Turns (opTurn data) ⟨reading .inStartTag folds, el, s⟩
        ⟨reading .inGetElement folds', el', s'⟩ ∧
      el'.object = el.object ∧ At data s' (t' ++ more) ∧ IsText t' ∧
      t'.length ≤ text.val.length := by
  cases tag with
  | opening name attrs =>
    obtain ⟨l, rfl⟩ := hmore.resolve_right (by simp)
    cases attrs with
    | none =>
      obtain rfl := some.inj hcount
      exact plain_turns folds el (a := []) (by simp) (by simpa [Tag.octets, attrOctets] using h)
    | some attrs =>
      rw [Tag.count] at hcount
      split at hcount
      · cases hcount
      · next hne =>
        obtain rfl := some.inj hcount
        obtain ⟨el', s', hturns, hobject, hat⟩ := opening_turns folds el h
        rw [if_neg hne] at hturns
        exact ⟨el', _, _, hturns, hobject, hat.cons, text.property, le_rfl⟩
  | empty name =>
    obtain ⟨l, rfl⟩ := hmore.resolve_right (by simp)
    obtain rfl := some.inj hcount
    exact plain_turns folds el (a := ['/']) (by simp) (by simpa [Tag.octets] using h)
  | closed name attrs =>
    rw [Tag.count] at hcount
    split at hcount
    · cases hcount
    · next hfolded =>
      obtain rfl := some.inj hcount
      obtain ⟨el', s', a, hclosed, hobject, hat, -, hnil⟩ := closed_turns folds el h
      obtain rfl := hnil (by omega)
      exact ⟨el', _, _, hclosed.trans (unfold_turns _ el' hat hfolded), hobject, hat.cons, text.property, le_rfl⟩
  | closing name =>
    rw [Tag.count] at hcount
    split at hcount
    · cases hcount
    · next hfolded =>
      obtain rfl := some.inj hcount
      obtain ⟨s', a, hclosing, hat, -, hnil⟩ := closing_turns folds el h
      obtain rfl := hnil (by omega)
      exact ⟨el, _, _, hclosing.trans (unfold_turns _ el hat hfolded), rfl, hat.cons, text.property, le_rfl⟩

/-- The tag with which the element ends. -/
theorem tag_ends (h : At data s (tag.octets ++ (text.val ++ more))) (hcount : tag.count folds = none)
    (hobject : data[el.object]? = some '<') :
    ∃ type s', opSkipBlank data (s + tag.octets.length) = .ok s' ∧
      Turns (opTurn data) ⟨reading .inStartTag folds, el, s⟩ ⟨reading .ended 0,
        ⟨.full, type, el.object, (s + tag.octets.length - el.object) % 65536⟩, s'⟩ := by
  -- it is enough to get to the bracket in the state that handles the end
  have hend : ∀ {el' : ObexParseData} {folds' s₁ : ℕ} {a : List Char},
      Turns (opTurn data) ⟨reading .inStartTag folds, el, s⟩
        ⟨reading .inEndTag folds', el', s₁⟩ →
      el'.object = el.object → At data s₁ (a ++ '>' :: (text.val ++ more)) → '>' ∉ a →
      folds' ≤ 1 → ∃ type s', opSkipBlank data (s + tag.octets.length) = .ok s' ∧
        Turns (opTurn data) ⟨reading .inStartTag folds, el, s⟩ ⟨reading .ended 0,
          ⟨.full, type, el.object, (s + tag.octets.length - el.object) % 65536⟩, s'⟩ := by
    intro el' folds' s₁ a hturns hsame hat ha hfolds
    have hlen := h.length_eq
    have hlen' := hat.length_eq
    rw [length_append] at hlen hlen'
    rw [length_cons] at hlen'
    obtain ⟨s', hblank, hended⟩ := end_turns _ el' hat ha hfolds (by rw [hsame]; exact hobject)
    have hpos : s₁ + a.length + 1 = s + tag.octets.length := by omega
    rw [hpos, hsame] at hended
    rw [hpos] at hblank
    refine ⟨el'.type, s', hblank, ?_⟩
    have hsplit : ({ el' with
        len := (s + tag.octets.length - el.object) % 65536
        fragment := .full } : ObexParseData) =
          ⟨.full, el'.type, el.object, (s + tag.octets.length - el.object) % 65536⟩ := by
      rw [← hsame]
    exact hturns.trans (hsplit ▸ hended)
  cases tag with
  | opening name attrs =>
    cases attrs with
    | none => cases hcount
    | some attrs =>
      rw [Tag.count] at hcount
      split at hcount
      · next hzero =>
        obtain ⟨el', s', hturns, hsame, hat⟩ := opening_turns folds el h
        rw [if_pos hzero] at hturns
        exact hend (a := []) hturns hsame hat not_mem_nil (by omega)
      · cases hcount
  | empty name => cases hcount
  | closed name attrs =>
    rw [Tag.count] at hcount
    split at hcount
    · next hfolds =>
      obtain ⟨el', s', a, hclosed, hsame, hat, ha, -⟩ := closed_turns folds el h
      exact hend hclosed hsame hat ha hfolds
    · cases hcount
  | closing name =>
    rw [Tag.count] at hcount
    split at hcount
    · next hfolds =>
      obtain ⟨s', a, hclosing, hat, ha, -⟩ := closing_turns folds el h
      exact hend hclosing rfl hat ha hfolds
    · cases hcount

theorem Tag.exists_octets (tag : Tag) : ∃ l, tag.octets = '<' :: l := by
  cases tag <;> exact ⟨_, rfl⟩

variable {row : Row}

theorem Row.exists_octets (h : row ≠ []) : ∃ l, row.octets = '<' :: l := by
  obtain ⟨⟨tag, text⟩, row', rfl⟩ := exists_cons_of_ne_nil h
  obtain ⟨l, hl⟩ := tag.exists_octets
  exact ⟨l ++ (text.val ++ Row.octets row'), by rw [octets_cons, hl, List.cons_append]⟩

/-- The last tag is that of an envelope, and nothing stands behind it. -/
def Row.Closed (row : Row) : Prop :=
  ∃ init name text, row = init ++ [(Tag.closing name, text)] ∧ text.val = []

theorem Row.Closed.tail {entry : Tag × Text} (h : Row.Closed (entry :: row))
    (hne : row ≠ []) : row.Closed := by
  obtain ⟨init, name, text, heq, hnil⟩ := h
  cases init with
  | nil => exact absurd (List.cons.inj heq).2 hne
  | cons _ init => exact ⟨init, name, text, (List.cons.inj heq).2, hnil⟩

/-- Behind a tag of a row there is another one, unless it is the last. -/
theorem Row.Closed.next (h : Row.Closed ((tag, text) :: row)) :
    (∃ l, row.octets = '<' :: l) ∨ ∃ name, tag = .closing name := by
  by_cases hne : row = []
  · obtain ⟨init, name, text, heq, -⟩ := h
    subst hne
    cases init with
    | nil => exact .inr ⟨name, congrArg Prod.fst (List.cons.inj heq).1⟩
    | cons _ init => exact absurd (List.cons.inj heq).2 (by simp)
  · exact .inl (exists_octets hne)

/-- One tag of a row leads to the next one. -/
theorem next_turns (h : At data s (Row.octets ((tag, text) :: row)))
    (hclosed : Row.Closed ((tag, text) :: row)) (hne : row ≠ [])
    (hcount : tag.count folds = some folds') :
    ∃ el' s', Turns (opTurn data) ⟨reading .inStartTag folds, el, s⟩
        ⟨reading .inStartTag folds', el', s'⟩ ∧
      el'.object = el.object ∧ At data s' row.octets := by
  rw [Row.octets_cons] at h
  obtain ⟨el', s', t', hturns, hobject, hat, ht', -⟩ := tag_turns el h hclosed.next hcount
  obtain ⟨l, hl⟩ := Row.exists_octets hne
  rw [hl] at hat
  refine ⟨el', s' + t'.length, hturns.trans (text_turns _ el' hat ht'), hobject, ?_⟩
  rw [hl]
  exact hat.append

/-- The element ends with the tag that `tagsBehind` names. -/
theorem row_ends {rest : List Tag} (h : At data s row.octets) (hclosed : row.Closed)
    (hrest : tagsBehind folds row.tags = some rest) (hobject : data[el.object]? = some '<') :
    ∃ init tag text row' e, row = init ++ (tag, text) :: row' ∧ Row.tags row' = rest ∧
      At data e (text.val ++ Row.octets row') ∧ ∃ type s', opSkipBlank data e = .ok s' ∧
        Turns (opTurn data) ⟨reading .inStartTag folds, el, s⟩ ⟨reading .ended 0,
          ⟨.full, type, el.object, (e - el.object) % 65536⟩, s'⟩ := by
  induction row generalizing folds el s with
  | nil => cases hrest
  | cons entry row ih =>
    obtain ⟨tag, text⟩ := entry
    rw [Row.tags, map_cons, tagsBehind] at hrest
    cases hcount : tag.count folds with
    | none =>
      rw [hcount] at hrest
      rw [Row.octets_cons] at h
      obtain ⟨type, s', hends⟩ := tag_ends el h hcount hobject
      exact ⟨[], tag, text, row, _, rfl, some.inj hrest, h.append, type, s', hends⟩
    | some folds' =>
      rw [hcount] at hrest
      have hne : row ≠ [] := by
        rintro rfl
        cases hrest
      obtain ⟨el', s₁, hturns, hsame, hat⟩ := next_turns el h hclosed hne hcount
      obtain ⟨init, tag', text', row', e, hsplit, htags, hat', type, s', hblank, hturns'⟩ :=
        ih el' hat (hclosed.tail hne) hrest (by rw [hsame]; exact hobject)
      rw [hsame] at hturns'
      exact ⟨(tag, text) :: init, tag', text', row', e, by rw [hsplit, List.cons_append], htags,
        hat', type, s', hblank, hturns.trans hturns'⟩

/-- Unless there is such a tag, the parser reads to the end of the data. -/
theorem row_unended (h : At data s row.octets) (hclosed : row.Closed)
    (hrest : tagsBehind folds row.tags = none) :
    ∃ el' folds', Turns (opTurn data) ⟨reading .inStartTag folds, el, s⟩
      ⟨reading .inGetElement folds', el', data.length⟩ := by
  induction row generalizing folds el s with
  | nil =>
    obtain ⟨init, name, text, heq, -⟩ := hclosed
    exact absurd heq (by simp)
  | cons entry row ih =>
    obtain ⟨tag, text⟩ := entry
    rw [Row.tags, map_cons, tagsBehind] at hrest
    cases hcount : tag.count folds with
    | none =>
      rw [hcount] at hrest
      cases hrest
    | some folds' =>
      rw [hcount] at hrest
      by_cases hne : row = []
      · subst hne
        have hnil : text.val = [] := by
          obtain ⟨init, name, text', heq, hnil⟩ := hclosed
          cases init with
          | nil =>
            have htext : text = text' := congrArg Prod.snd (List.cons.inj heq).1
            rw [htext]
            exact hnil
          | cons _ init => exact absurd (List.cons.inj heq).2 (by simp)
        have hnext := hclosed.next
        rw [Row.octets_cons] at h
        obtain ⟨el', s', t', hturns, -, hat, -, hle⟩ := tag_turns el h hnext hcount
        have hlen := hat.length_eq
        rw [hnil, length_nil, Nat.le_zero] at hle
        rw [length_append, hle] at hlen
        obtain rfl : s' = data.length := hlen
        exact ⟨el', folds', hturns⟩
      · obtain ⟨el', s₁, hturns, -, hat⟩ := next_turns el h hclosed hne hcount
        obtain ⟨el'', folds'', hturns'⟩ := ih el' hat (hclosed.tail hne) hrest
        exact ⟨el'', folds'', hturns.trans hturns'⟩

end Cbps.ObexParse
