import Cbps.ObexParse.Rows

/-!
# The parser finds the children

What `ObexParseCreateTree` makes of a document: `finds_iff` says that it lists the attributes of
the envelope and the children exactly if the tree has room for them, there is something to list
and the count gets back to nothing with the last tag of every child.
-/

namespace Cbps.ObexParse

open Lib List

open Lib (Yields Turns)

variable {data : List Char}

/-! ### One entry -/

variable {s : ℕ} {l : List Char}

theorem not_blank (h : At data s ('<' :: l)) : ¬ Blank (data.drop s) := by
  rw [h.2, Blank]
  simp

/-- There is no junk in front of a tag. -/
theorem opSkipJunk_cons (h : At data s ('<' :: l)) :
    opSkipJunk data s = .ok s := by
  have hstay : ∀ p : Char → Bool, p '<' = false → skipWhile data p s = .ok s :=
    fun p hp => At.skipWhile (a := []) h (by simp) hp
  rw [opSkipJunk, opSkipCRLF, opSkipChars, hstay _ (by decide), ok_bind, opSkipSpace,
    opSkipChars, hstay _ (by decide), ok_bind]
  exact hstay _ (by decide)

theorem opSkipJunk_length : opSkipJunk data data.length = .ok data.length := by
  have hend : At data data.length [] := ⟨le_rfl, drop_length⟩
  rw [opSkipJunk, opSkipCRLF, opSkipChars, hend.skipWhile_nil, ok_bind, opSkipSpace,
    opSkipChars, hend.skipWhile_nil, ok_bind]
  exact hend.skipWhile_nil

/-- Reading from `p` on, the parser gets to the tag at `s`, with which its entry begins. -/
structure Begins (data : List Char) (p : Parse) (s : ℕ) : Prop where
  state : p.handle.state = .newEntry
  folds : p.handle.folds = 0
  lt : p.s < data.length
  visible : ¬ Blank (data.drop p.s)
  turns : ∃ el : ObexParseData, el.object = s ∧ Turns (opTurn data)
    ⟨p.handle, ⟨.full, .unknown, 0, 0⟩, p.s⟩ ⟨reading .inStartTag 0, el, s⟩

/-- Past the envelope, an entry begins where the parser is. -/
theorem begins_reading (h : At data s ('<' :: l))
    (elements : List ObexParseData) : Begins data ⟨reading .newEntry 0, s, elements⟩ s := by
  refine ⟨rfl, rfl, h.lt, not_blank h, opAddElement .partialStart .xmlElement s (data.length - s),
    rfl, turns_of_eq (if_neg h.lt.ne) ?_⟩
  rw [opHandleNewEntry, h.skipBlank_cons (.inl rfl), ok_bind, h.peek]
  rfl

/-- The loop of an entry ends where its turns stop. -/
theorem entryLoop_eq {handle : OpHandle} {cur : Cursor} (hstate : handle.state = .newEntry)
    (hfolds : handle.folds = 0) (hlt : s < data.length) (hvisible : ¬ Blank (data.drop s))
    (hturns : Turns (opTurn data) ⟨handle, ⟨.full, .unknown, 0, 0⟩, s⟩ cur)
    (hstop : opTurn data cur = .ok none) :
    Lib.loop .endless (opTurn data) (1100 * (data.length + 1)) ⟨handle, ⟨.full, .unknown, 0, 0⟩, s⟩ =
      .ok cur := by
  obtain ⟨r, hr, -⟩ := opGetNextElement_yields hstate hfolds hlt hvisible
  rw [opGetNextElement] at hr
  cases hloop : Lib.loop .endless (opTurn data) (1100 * (data.length + 1))
      ⟨handle, ⟨.full, .unknown, 0, 0⟩, s⟩ with
  | error e =>
    rw [hloop] at hr
    cases hr
  | ok r' => rw [loop_eq_of_turns hturns hstop hloop]

variable {el : ObexParseData} {p : Parse}

/-- An entry that ends is listed, and the next one begins behind the end tags. -/
theorem parseTurn_ended {s s₁ s₂ : ℕ}
    (hcont : p.Continues data) (hfolds : p.handle.folds = 0) (hlt : p.s < data.length)
    (hvisible : ¬ Blank (data.drop p.s))
    (hturns : Turns (opTurn data) ⟨p.handle, ⟨.full, .unknown, 0, 0⟩, p.s⟩ ⟨reading .ended 0, el, s⟩)
    (htags : Lib.loop .endless (opEndTagTurn data .xmlObject) (data.length + 1) s = .ok s₁)
    (hjunk : opSkipJunk data s₁ = .ok s₂) :
    parseTurn data p = .ok (some ⟨reading .newEntry 0, s₂, p.elements ++ [el]⟩) := by
  have hstop : opTurn data ⟨reading .ended 0, el, s⟩ = .ok none := by
    rw [opTurn]
    split <;> rfl
  have hnext : opGetNextElement data p.handle p.s = .ok ⟨reading .newEntry 0, el, s₂⟩ := by
    rw [opGetNextElement, entryLoop_eq hcont.2.1 hfolds hlt hvisible hturns hstop, ok_bind]
    refine (if_pos rfl).trans ?_
    change (Lib.loop .endless (opEndTagTurn data .xmlObject) (data.length + 1) s >>= _) = _
    rw [htags, ok_bind, hjunk]
    rfl
  rw [parseTurn, if_pos hcont, hnext]
  rfl

/-- An entry that reaches the end of the data in the middle of its element is the last one. -/
theorem parseTurn_unended {folds : ℕ} (hcont : p.Continues data)
    (hfolds : p.handle.folds = 0) (hlt : p.s < data.length) (hvisible : ¬ Blank (data.drop p.s))
    (hturns : Turns (opTurn data) ⟨p.handle, ⟨.full, .unknown, 0, 0⟩, p.s⟩
      ⟨reading .inGetElement folds, el, data.length⟩) :
    parseTurn data p =
      .ok (some ⟨reading .inGetElement folds, data.length, p.elements ++ [el]⟩) := by
  have hstop : opTurn data ⟨reading .inGetElement folds, el, data.length⟩ = .ok none := if_pos rfl
  have hnext : opGetNextElement data p.handle p.s =
      .ok ⟨reading .inGetElement folds, el, data.length⟩ := by
    rw [opGetNextElement, entryLoop_eq hcont.2.1 hfolds hlt hvisible hturns hstop, ok_bind]
    refine (if_neg OpState.noConfusion).trans ?_
    change (opSkipJunk data data.length >>= _) = _
    rw [opSkipJunk_length]
    rfl
  rw [parseTurn, if_pos hcont, hnext]
  rfl

/-! ### End tags -/

/-- In front of a child there are no end tags to pass over. -/
theorem endTags_child {c : Char} (h : At data s ('<' :: c :: l))
    (hc : c ≠ '/') :
    Lib.loop .endless (opEndTagTurn data .xmlObject) (data.length + 1) s = .ok s := by
  refine loop_stop ?_ data.length
  have hend : ¬ AtEndTag data s .xmlObject := by
    rw [AtEndTag, h.getElem?, h.cons.getElem?]
    simp [hc]
  rw [opEndTagTurn, opCheckEndTag_eq h.1 _ (fun _ hslash => ?_), decide_eq_false hend]
  · rfl
  · rw [h.getElem?] at hslash
    cases hslash

variable {name : Name}

/-- The end tag of the envelope is passed over. -/
theorem endTags_closing (h : At data s (Tag.closing name).octets) :
    Lib.loop .endless (opEndTagTurn data .xmlObject) (data.length + 1) s = .ok data.length := by
  have hat : At data s (('<' :: '/' :: name.val) ++ ['>']) := h
  have hcons : At data s ('<' :: '/' :: (name.val ++ ['>'])) := h
  have hend : AtEndTag data s .xmlObject := .inr ⟨hcons.getElem?, hcons.cons.getElem?⟩
  have hskip : opSkipToChar data s '>' = .ok (s + ('<' :: '/' :: name.val).length) := by
    refine hat.skipWhile (fun x hx => decide_eq_true ?_) (by decide)
    rintro rfl
    rcases hx with _ | ⟨_, _ | ⟨_, hmem⟩⟩
    exact (name.property.1 _ hmem).2.1 rfl
  have hlast : s + ('<' :: '/' :: name.val).length + 1 = data.length := by
    have hlen := hat.append.length_eq
    rwa [length_singleton] at hlen
  have hturn : opEndTagTurn data .xmlObject s = .ok (some data.length) := by
    rw [opEndTagTurn, opCheckEndTag_eq h.1 _ (fun _ hslash => ?_), decide_eq_true hend]
    · change (opSkipToChar data s '>' >>= _) = _
      rw [hskip, ok_bind, hat.append.advance, hlast]
      rfl
    · rw [hcons.getElem?] at hslash
      cases hslash
  have hstop : opEndTagTurn data .xmlObject data.length = .ok none := by
    have hno : ¬ AtEndTag data data.length .xmlObject := by
      simp [AtEndTag]
    rw [opEndTagTurn, opCheckEndTag_eq le_rfl _ (fun _ hslash => ?_), decide_eq_false hno]
    · rfl
    · rw [List.getElem?_eq_none le_rfl] at hslash
      cases hslash
  rw [loop_turn hturn]
  obtain ⟨m, hm⟩ : ∃ m, data.length = m + 1 := ⟨data.length - 1, by omega⟩
  have hloop : Lib.loop .endless (opEndTagTurn data .xmlObject) (m + 1) data.length =
      .ok data.length := loop_stop hstop m
  rwa [← hm] at hloop

/-! ### Children -/

theorem Row.Closed.append {row : Row} (h : row.Closed) (front : Row) :
    Row.Closed (front ++ row) := by
  obtain ⟨init, name, text, rfl, hnil⟩ := h
  exact ⟨front ++ init, name, text, (append_assoc _ _ _).symm, hnil⟩

/-- What is left of a document is a row that ends with the tag of the envelope. -/
theorem exists_row (children : List Child) (name : Name) : ∃ row : Row,
    Document.childOctets children ++ (Tag.closing name).octets = row.octets ∧ row.Closed ∧
      row.tags = children.flatMap Child.tags ++ [.closing name] := by
  induction children with
  | nil =>
    refine ⟨[(.closing name, noText)], ?_, ⟨[], name, noText, rfl, rfl⟩, rfl⟩
    simp [Document.childOctets, Row.octets, noText]
  | cons child children ih =>
    obtain ⟨row, hoctets, hclosed, htags⟩ := ih
    obtain ⟨first, tag, hchild, hchildTags⟩ := child.exists_row
    refine ⟨(first ++ [(tag, noText)]) ++ row, ?_, hclosed.append _, ?_⟩
    · rw [Document.childOctets_cons, append_assoc, hoctets, hchild, Row.octets_append _ row]
    · rw [Row.tags, map_append, ← Row.tags, ← Row.tags, hchildTags, htags, flatMap_cons,
        append_assoc]

theorem Child.exists_octets (child : Child) : ∃ c l, child.octets = '<' :: c :: l ∧ c ≠ '/' := by
  have hname : ∀ (name : Name) (l : List Char), ∃ c l', '<' :: (name.val ++ l) = '<' :: c :: l' ∧
      c ≠ '/' := by
    rintro ⟨name, htext, hne, -⟩ l
    obtain ⟨c, name', rfl⟩ := exists_cons_of_ne_nil hne
    exact ⟨c, name' ++ l, rfl, (htext c mem_cons_self).2.2⟩
  cases child with
  | empty name => exact hname name _
  | closed name attrs =>
    rw [octets, Tag.octets, append_assoc]
    exact hname name _
  | pair name attrs content =>
    rw [octets, Tag.octets, cons_append, cons_append, append_assoc, append_assoc,
      append_assoc]
    exact hname name _

variable {children : List Child}

/-- A counted child is listed. The next entry begins behind it, unless it is the last one. -/
theorem child_turn {child : Child}
    (h : Begins data p s) (hroom : p.elements.length < obexParseMaxElements)
    (hat : At data s (child.octets ++
      (Document.childOctets children ++ (Tag.closing name).octets)))
    (hcounted : child.Counted) :
    ∃ type, parseTurn data p = .ok (some ⟨reading .newEntry 0,
      if children = [] then data.length else s + child.octets.length,
      p.elements ++ [⟨.full, type, s, child.octets.length % 65536⟩]⟩) := by
  obtain ⟨el, rfl, hturns⟩ := h.turns
  obtain ⟨row, hoctets, hclosed, -⟩ := exists_row children name
  obtain ⟨first, tag, hchild, hchildTags⟩ := child.exists_row
  have hrow : At data el.object (Row.octets ((first ++ [(tag, noText)]) ++ row)) := by
    rw [Row.octets_append _ row, ← hchild, ← hoctets]
    exact hat
  have hbehind : tagsBehind 0 (Row.tags ((first ++ [(tag, noText)]) ++ row)) = some row.tags := by
    rw [Row.tags, map_append, ← Row.tags, ← Row.tags, hchildTags]
    exact tagsBehind_append hcounted row.tags
  have hobject : data[el.object]? = some '<' := by
    obtain ⟨c, l, hcons, -⟩ := child.exists_octets
    rw [hcons] at hat
    exact hat.getElem?
  obtain ⟨init, tag', text, row', e, hsplit, htags, hate, type, s', hblank, hended⟩ :=
    row_ends el hrow (hclosed.append _) hbehind hobject
  -- the element ends with the last tag of the child
  have hlen : row.length = row'.length := by
    have hlen := congrArg List.length htags
    rw [length_map, length_map] at hlen
    exact hlen.symm
  have hsplit' : (first ++ [(tag, noText)]) ++ row = (init ++ [(tag', text)]) ++ row' :=
    hsplit.trans (append_cons _ _ _)
  obtain ⟨hinit, rfl⟩ := append_inj' hsplit' hlen
  obtain ⟨-, hlast⟩ := append_inj' hinit rfl
  obtain rfl : noText = text := congrArg Prod.snd (List.cons.inj hlast).1
  rw [← hoctets] at hate
  have hpos : e = el.object + child.octets.length := by
    have hlene := hate.length_eq
    have hlens := hat.append.length_eq
    rw [length_append] at hlene
    change e + (0 + _) = _ at hlene
    omega
  subst hpos
  rw [Nat.add_sub_cancel_left] at hended
  have hrest : At data (el.object + child.octets.length)
      (Document.childOctets children ++ (Tag.closing name).octets) := hat.append
  have hcont : p.Continues data := ⟨h.lt.ne, h.state, hroom⟩
  refine ⟨type, ?_⟩
  cases children with
  | nil =>
    have hstay := At.skipBlank_cons (l := '/' :: (name.val ++ ['>'])) hrest (.inl rfl)
    obtain rfl : el.object + child.octets.length = s' := Except.ok.inj (hstay.symm.trans hblank)
    exact parseTurn_ended hcont h.folds h.lt h.visible (hturns.trans hended)
      (endTags_closing (show At data _ (Tag.closing name).octets from hrest)) opSkipJunk_length
  | cons second children =>
    obtain ⟨c, l, hcons, hc⟩ := second.exists_octets
    rw [Document.childOctets_cons, hcons] at hrest
    have hstay := At.skipBlank_cons hrest (.inl rfl)
    obtain rfl : el.object + child.octets.length = s' := Except.ok.inj (hstay.symm.trans hblank)
    rw [if_neg (cons_ne_nil _ _)]
    exact parseTurn_ended hcont h.folds h.lt h.visible (hturns.trans hended)
      (endTags_child hrest hc) (opSkipJunk_cons hrest)

/-- The elements are whole and lie where `spans` says. -/
def Lists (elements : List ObexParseData) (spans : List (ℕ × ℕ)) : Prop :=
  elements.map (fun el => (el.fragment, el.object, el.len)) =
    spans.map fun span => (.full, span.1, span.2)

theorem Lists.length_eq {elements : List ObexParseData} {spans : List (ℕ × ℕ)}
    (h : Lists elements spans) : elements.length = spans.length := by
  have hlen := congrArg List.length h
  rwa [length_map, length_map] at hlen

theorem Lists.append {elements elements' : List ObexParseData} {spans spans' : List (ℕ × ℕ)}
    (h : Lists elements spans) (h' : Lists elements' spans') :
    Lists (elements ++ elements') (spans ++ spans') := by
  rw [Lists, map_append, map_append, h, h']

theorem Lists.len_eq {elements more : List ObexParseData}
    {spans others : List (ℕ × ℕ)} {span : ℕ × ℕ}
    (h : Lists (elements ++ el :: more) (spans ++ span :: others)) (hfront : Lists elements spans) :
    el.len = span.2 := by
  rw [Lists, map_append, map_append, hfront] at h
  have hhead := (List.cons.inj (append_cancel_left h)).1
  exact congrArg (fun triple => triple.2.2) hhead

variable {front rest : List Child}

/-- Counted children are listed one after the other. -/
theorem children_turns (h : Begins data p s) (hlen : data.length < 65536)
    (hat : At data s (Document.childOctets (front ++ rest) ++ (Tag.closing name).octets))
    (hcounted : ∀ child ∈ front, child.Counted)
    (hroom : p.elements.length + front.length ≤ obexParseMaxElements) :
    ∃ p', Turns (parseTurn data) p p' ∧
      (∃ elements, p'.elements = p.elements ++ elements ∧ Lists elements (Document.spans s front)) ∧
      (rest ≠ [] → Begins data p' (s + (Document.childOctets front).length)) ∧
      (front ≠ [] → rest = [] → p'.handle.state = .newEntry ∧ p'.s = data.length) := by
  induction front generalizing p s with
  | nil =>
    exact ⟨p, .refl, ⟨[], (append_nil _).symm, rfl⟩, fun _ => h, fun hne => absurd rfl hne⟩
  | cons child front ih =>
    rw [cons_append, Document.childOctets_cons, append_assoc] at hat
    rw [length_cons] at hroom
    obtain ⟨type, hturn⟩ := child_turn h (by omega) hat (hcounted child mem_cons_self)
    have hmod : child.octets.length % 65536 = child.octets.length := by
      have hle := hat.length_eq
      rw [length_append] at hle
      exact Nat.mod_eq_of_lt (by omega)
    rw [hmod] at hturn
    by_cases hnil : front ++ rest = []
    · rw [if_pos hnil] at hturn
      obtain ⟨rfl, rfl⟩ := append_eq_nil_iff.mp hnil
      exact ⟨_, .single hturn, ⟨_, rfl, rfl⟩, fun hne => absurd rfl hne, fun _ _ => ⟨rfl, rfl⟩⟩
    · rw [if_neg hnil] at hturn
      obtain ⟨next, others, heq⟩ := exists_cons_of_ne_nil hnil
      obtain ⟨c, l, hcons, -⟩ := next.exists_octets
      have hnext := hat.append
      rw [heq, Document.childOctets_cons, hcons] at hnext
      obtain ⟨p', hturns, ⟨elements, heq', hlists⟩, hbegins, hend⟩ :=
        ih (begins_reading hnext (p.elements ++ [⟨.full, type, s, child.octets.length⟩])) hat.append
          (fun child hmem => hcounted child (mem_cons_of_mem _ hmem))
          (by rw [length_append, length_singleton]; omega)
      refine ⟨p', .head hturn hturns, ⟨_, heq'.trans (append_assoc _ _ _), ?_⟩, ?_, ?_⟩
      · have hfirst : Lists [⟨.full, type, s, child.octets.length⟩] [(s, child.octets.length)] := rfl
        exact hfirst.append hlists
      · intro hne
        rw [Document.childOctets_cons, length_append, ← Nat.add_assoc]
        exact hbegins hne
      · intro _ hrest
        refine hend ?_ hrest
        rintro rfl
        exact hnil hrest

/-! ### The envelope -/

variable {objType : ObexParseObject}

/-- `ObexParseCreateTree` begins at the envelope of an XML object. -/
theorem parseStart_eq (hxml : (startHandle objType).type = .xmlObject)
    {c : Char} (h : At data 0 ('<' :: c :: l)) (hc : c ≠ '/') :
    parseStart data objType = .ok ⟨⟨.newEntry, true, .xmlObject, 0⟩, 0, []⟩ := by
  have hstart : AtStartTag data 0 .xmlObject := by
    refine ⟨h.getElem?, ?_⟩
    rw [h.cons.getElem?]
    exact fun heq => hc (Option.some.inj heq)
  have hskip : opSkipCRLF data 0 = .ok 0 :=
    At.skipWhile (a := []) h (by simp) (by decide)
  have hhandle : startHandle objType = ⟨.newEntry, true, .xmlObject, 0⟩ := by
    rw [← hxml]
    rfl
  rw [parseStart, hskip, ok_bind, hhandle, opCheckStartTag_eq h.1, decide_eq_true hstart]
  rfl

/-- The tag of the envelope is not counted: the first element begins behind it. -/
theorem envelope_turns {c d : Char} (el : ObexParseData)
    (h : At data 0 ('<' :: (name.val ++ d :: c :: l))) (hd : d = '>' ∨ d = ' ')
    (hc : c ≠ ' ' ∧ c ≠ '\t' ∧ c ≠ '\n' ∧ c ≠ '\r') :
    ∃ el' : ObexParseData, el'.object = name.val.length + 2 ∧
      Turns (opTurn data) ⟨⟨.newEntry, true, .xmlObject, 0⟩, el, 0⟩
        ⟨reading .inGetElement 0, el', name.val.length + 2⟩ := by
  obtain ⟨name, htext, hne, hblank⟩ := name
  obtain ⟨x, name', rfl⟩ := exists_cons_of_ne_nil hne
  dsimp only at h ⊢
  have hat : At data 1 ((x :: name') ++ d :: c :: l) := h.cons
  -- the octet behind the tag is not blank
  have hstay : ∀ p : Char → Bool, p c = false →
      skipWhile data p (1 + (x :: name').length + 1) = .ok (1 + (x :: name').length + 1) :=
    fun p hp => At.skipWhile (a := []) hat.append.cons (by simp) hp
  have hspace : opSkipSpace data (1 + (x :: name').length + 1) = .ok (1 + (x :: name').length + 1) :=
    hstay _ (by simp [hc])
  have hskip : opSkipBlank data (1 + (x :: name').length + 1) = .ok (1 + (x :: name').length + 1) := by
    rw [opSkipBlank, opSkipCRLF, opSkipChars, hstay _ (by simp [hc]), ok_bind]
    exact hspace
  have htag : opSkipTag data .xmlObject 1 = .ok (1 + (x :: name').length) := by
    refine hat.skipWhile (fun y hy => decide_eq_true ?_) ?_
    · exact ⟨(htext y hy).2.1, fun heq => hblank (heq ▸ hy)⟩
    · rcases hd with rfl | rfl <;> decide
  obtain ⟨obj, hobj, -⟩ := opParseXmlType_yields hat.1
  have hnew : opHandleNewEntry data ⟨⟨.newEntry, true, .xmlObject, 0⟩, el, 0⟩ =
      .ok ⟨⟨.inStartTag, true, .xmlObject, 0⟩,
        opAddElement .partialStart .xmlElement 0 data.length, 0⟩ := by
    rw [opHandleNewEntry, h.skipBlank_cons (.inl rfl), ok_bind, h.peek]
    rfl
  have hprop : ∀ el, opGetProp data ⟨⟨.inStartTag, true, .xmlObject, 0⟩, el, 0⟩ =
      .ok ⟨⟨.inGetTag, true, .xmlObject, 0⟩, el, 1⟩ := by
    intro el
    have hstart : AtStartTag data 0 .xmlObject := by
      refine ⟨h.getElem?, ?_⟩
      rw [h.cons.getElem?]
      exact fun heq => (htext x mem_cons_self).2.2 (Option.some.inj heq)
    rw [opGetProp, opCheckStartTag_eq h.1, ok_bind]
    change (if decide (AtStartTag data 0 .xmlObject) = true then _ else _) = _
    rw [decide_eq_true hstart]
    rfl
  have htagged : ∃ el', el'.object = 1 + (x :: name').length + 1 ∧
      opGetTag data ⟨⟨.inGetTag, true, .xmlObject, 0⟩,
        opAddElement .partialStart .xmlElement 0 data.length, 1⟩ =
        .ok ⟨reading .inGetElement 0, el', 1 + (x :: name').length + 1⟩ := by
    refine ⟨⟨.partialStart, .xmlElement, 1 + (x :: name').length + 1,
      (data.length - (1 + (x :: name').length + 1)) % 65536⟩, rfl, ?_⟩
    rw [opGetTag, opExtractTag]
    change (opParseXmlType data 1 >>= _) >>= _ = _
    rw [hobj, ok_bind]
    change (opSkipTag data .xmlObject 1 >>= _) >>= _ = _
    rw [htag, ok_bind, hat.append.advance, hskip, ok_bind]
    refine (if_pos hat.append.cons.lt.ne).trans ((if_pos rfl).trans ?_)
    rw [hspace]
    rfl
  obtain ⟨el', hobject, hget⟩ := htagged
  have hpos : 1 + (x :: name').length + 1 = (x :: name').length + 2 := by omega
  rw [hpos] at hobject hget
  have hfirst : opTurn data ⟨⟨.newEntry, true, .xmlObject, 0⟩, el, 0⟩ = some <$> _ := if_neg h.lt.ne
  have hsecond : opTurn data ⟨⟨.inStartTag, true, .xmlObject, 0⟩,
      opAddElement .partialStart .xmlElement 0 data.length, 0⟩ = some <$> _ := if_neg h.lt.ne
  have hthird : opTurn data ⟨⟨.inGetTag, true, .xmlObject, 0⟩,
      opAddElement .partialStart .xmlElement 0 data.length, 1⟩ = some <$> _ := if_neg (At.lt hat).ne
  exact ⟨el', hobject, ((turns_of_eq hfirst hnew).trans (turns_of_eq hsecond (hprop _))).trans
    (turns_of_eq hthird hget)⟩

/-- The octets of a document, tag by tag. -/
theorem Document.at_zero (doc : Document) :
    At doc.octets 0 ((Tag.opening doc.name doc.attrs).octets ++
      (Document.childOctets doc.children ++ (Tag.closing doc.name).octets)) := by
  refine ⟨Nat.zero_le _, ?_⟩
  rw [drop_zero, Document.octets, append_assoc]

/-- Behind the tag of the envelope there are the children, or its end tag. -/
theorem Document.exists_rest (doc : Document) : ∃ c l,
    Document.childOctets doc.children ++ (Tag.closing doc.name).octets = '<' :: c :: l ∧
      (doc.children ≠ [] → c ≠ '/') := by
  cases hchildren : doc.children with
  | nil => exact ⟨'/', _, rfl, fun hne => absurd rfl hne⟩
  | cons child children =>
    obtain ⟨c, l, hcons, hc⟩ := child.exists_octets
    refine ⟨c, l ++ Document.childOctets children ++ (Tag.closing doc.name).octets, ?_, fun _ => hc⟩
    rw [Document.childOctets_cons, hcons]
    rfl

theorem Name.exists_cons (name : Name) : ∃ c l, name.val = c :: l ∧ c ≠ '/' := by
  obtain ⟨name, htext, hne, -⟩ := name
  obtain ⟨c, l, rfl⟩ := exists_cons_of_ne_nil hne
  exact ⟨c, l, rfl, (htext c mem_cons_self).2.2⟩

variable {doc : Document}

theorem Document.parseStart_eq (hxml : (startHandle objType).type = .xmlObject) :
    parseStart doc.octets objType = .ok ⟨⟨.newEntry, true, .xmlObject, 0⟩, 0, []⟩ := by
  obtain ⟨c, l, hname, hc⟩ := doc.name.exists_cons
  have hat := doc.at_zero
  rw [Tag.octets, hname] at hat
  exact ObexParse.parseStart_eq hxml hat hc

/-- The first entry of a document without attributes begins behind the envelope. -/
theorem begins_document (hattrs : doc.attrs = none) :
    Begins doc.octets ⟨⟨.newEntry, true, .xmlObject, 0⟩, 0, []⟩ doc.start := by
  obtain ⟨c, l, hrest, -⟩ := doc.exists_rest
  have hat := doc.at_zero
  have hbehind := hat.append
  rw [Nat.zero_add, hrest] at hbehind
  have hstart : doc.start = doc.name.val.length + 2 := by
    simp [Document.start, Tag.octets, hattrs, attrOctets]
  have hopen : At doc.octets 0 ('<' :: (doc.name.val ++ '>' :: '<' :: c :: l)) := by
    rw [hrest, hattrs, Tag.octets] at hat
    simpa [attrOctets] using hat
  obtain ⟨el, hobject, hturns⟩ := envelope_turns ⟨.full, .unknown, 0, 0⟩ hopen (.inl rfl)
    (by decide)
  refine ⟨rfl, rfl, hopen.lt, not_blank hopen, el, hobject.trans hstart.symm, hturns.trans ?_⟩
  rw [← hstart]
  exact text_turns (t := []) 0 el hbehind (by simp [IsText])

/-- An element that begins without a tag ends in front of the bracket. -/
theorem noTag_turns {c : Char} {l t : List Char}
    (h : At data el.object (t ++ '>' :: c :: l)) (ht : IsText t) (hne : t ≠ []) :
    Turns (opTurn data) ⟨reading .inEndTag 0, el, el.object + t.length⟩
      ⟨reading .ended 0, ⟨.full, el.type, el.object, t.length % 65536⟩,
        el.object + t.length + 1⟩ := by
  obtain ⟨x, hfirst, hx⟩ : ∃ x, peek data el.object = .ok x ∧ x ≠ '<' := by
    obtain ⟨x, t', rfl⟩ := exists_cons_of_ne_nil hne
    exact ⟨x, h.peek, (ht x mem_cons_self).1⟩
  obtain ⟨t', y, rfl⟩ := (eq_nil_or_concat' t).resolve_left hne
  have hback : el.object + (t' ++ [y]).length - 1 = el.object + t'.length := by
    rw [length_append, length_singleton]
    omega
  have hlast : peek data (el.object + t'.length) = .ok y := by
    rw [append_assoc] at h
    exact h.append.peek
  have hy : y ≠ '<' := (ht y (by simp)).1
  have hpos : el.object ≠ el.object + (t' ++ [y]).length := by
    rw [length_append, length_singleton]
    omega
  have hretreat : opLastOctet data .xmlObject el.object (el.object + (t' ++ [y]).length) =
      .ok (el.object + t'.length) := by
    rw [opLastOctet, hfirst, ok_bind, if_neg hx, h.append.peek, ok_bind,
      decide_eq_true (And.intro (.inr rfl) hpos), retreatIf, if_pos rfl, retreat,
      if_neg (by omega), ok_bind, hback, hlast, ok_bind,
      decide_eq_false fun hand => hy hand.1, retreatIf]
    rfl
  have hadvance : advance data (el.object + t'.length) = el.object + (t' ++ [y]).length := by
    have hlt := h.append.lt
    rw [length_append, length_singleton] at hlt ⊢
    exact if_pos (by omega)
  have hskip : opSkipToChar data (el.object + (t' ++ [y]).length) '>' =
      .ok (el.object + (t' ++ [y]).length) :=
    At.skipWhile (a := []) h.append (by simp) (by decide)
  refine turns_of_eq (opTurn_inEndTag 0 el h.append.lt) ?_
  rw [opHandleEnd]
  refine (if_neg (show ¬ 0 - 1 ≠ 0 by decide)).trans ?_
  change (opLastOctet data .xmlObject el.object (el.object + (t' ++ [y]).length) >>= _) = _
  rw [hretreat, ok_bind, hadvance]
  change (opSkipBlank data (el.object + (t' ++ [y]).length) >>= _) = _
  rw [h.append.skipBlank_cons (.inr (.inl rfl)), ok_bind]
  change (opNoTag data .xmlObject el.object >>= _) = _
  rw [opNoTag, hfirst, ok_bind, decide_eq_true hx]
  change (opSkipToChar data (el.object + (t' ++ [y]).length) '>' >>= _) = _
  rw [hskip, ok_bind, h.append.advance, Nat.add_sub_cancel_left]
  rfl

/-- The attributes of the envelope are the first element. -/
theorem attrs_turn {attrs : Text} (hattrs : doc.attrs = some attrs)
    (hlen : doc.octets.length < 65536) :
    ∃ type, parseTurn doc.octets ⟨⟨.newEntry, true, .xmlObject, 0⟩, 0, []⟩ =
      .ok (some ⟨reading .newEntry 0, if doc.children = [] then doc.octets.length else doc.start,
        [⟨.full, type, doc.name.val.length + 2, attrs.val.length⟩]⟩) := by
  obtain ⟨c, l, hrest, hc⟩ := doc.exists_rest
  obtain ⟨x, attrs', hcons, hblank⟩ := doc.attrs_begin attrs (by rw [hattrs]; rfl)
  have hx : x ≠ '<' := (attrs.property x (by rw [hcons]; exact mem_cons_self)).1
  have hat := doc.at_zero
  have hbehind := hat.append
  rw [Nat.zero_add] at hbehind
  have hstart : doc.start = doc.name.val.length + 2 + attrs.val.length + 1 := by
    simp only [Document.start, Tag.octets, hattrs, attrOctets, length_cons, length_append,
      length_nil]
    omega
  have hopen : At doc.octets 0 ('<' :: (doc.name.val ++ ' ' :: x :: (attrs' ++ '>' ::
      '<' :: c :: l))) := by
    rw [hrest, hattrs, Tag.octets] at hat
    simpa [attrOctets, hcons] using hat
  obtain ⟨el, hobject, henter⟩ := envelope_turns ⟨.full, .unknown, 0, 0⟩ hopen (.inr rfl)
    (by tauto)
  have hattr : At doc.octets (doc.name.val.length + 2) (attrs.val ++ '>' :: '<' :: c :: l) := by
    have happend := hopen.cons.append.cons
    rw [hcons]
    have hpos : 0 + 1 + doc.name.val.length + 1 = doc.name.val.length + 2 := by omega
    rw [← hpos]
    exact happend
  have hbracket := bracket_turns 0 el hattr attrs.property
  rw [if_pos rfl, ← hobject] at hbracket
  rw [← hobject] at hattr
  have hnoTag := noTag_turns hattr attrs.property (by rw [hcons]; exact cons_ne_nil _ _)
  have hmod : attrs.val.length % 65536 = attrs.val.length := by
    have hle := hattr.length_eq
    rw [length_append] at hle
    exact Nat.mod_eq_of_lt (by omega)
  rw [← hobject] at henter
  have hturns := (henter.trans hbracket).trans hnoTag
  rw [hmod, hobject, ← hstart] at hturns
  refine ⟨el.type, ?_⟩
  have hcont : Parse.Continues doc.octets ⟨⟨.newEntry, true, .xmlObject, 0⟩, 0, []⟩ :=
    ⟨hopen.lt.ne, rfl, by decide⟩
  cases hchildren : doc.children with
  | nil =>
    have hclosing : At doc.octets doc.start (Tag.closing doc.name).octets := by
      rw [hchildren] at hbehind
      exact hbehind
    exact parseTurn_ended hcont rfl hopen.lt (not_blank hopen) hturns (endTags_closing hclosing)
      opSkipJunk_length
  | cons child children =>
    have hchild : At doc.octets doc.start ('<' :: c :: l) := by
      rw [← hrest]
      exact hbehind
    rw [if_neg (cons_ne_nil _ _)]
    exact parseTurn_ended hcont rfl hopen.lt (not_blank hopen) hturns
      (endTags_child hchild (hc (by rw [hchildren]; exact cons_ne_nil _ _)))
      (opSkipJunk_cons hchild)

/-! ### Documents -/

/-- Where the parts of a document lie: the attributes of the envelope, and the children. -/
def Document.parts (doc : Document) : List (ℕ × ℕ) :=
  doc.attrSpans ++ Document.spans doc.start doc.children

/-- `ObexParseCreateTree` lists as many parts of the document as the tree has room for, and says
whether there are more. -/
def Finds (doc : Document) (objType : ObexParseObject) : Prop :=
  Yields (obexParseCreateTree doc.octets objType) fun (status, tree) =>
    (∃ elements, tree = some elements ∧ Lists elements (doc.parts.take obexParseMaxElements)) ∧
      status = if doc.parts.length ≤ obexParseMaxElements then .success else .treeFull

theorem Document.length_spans (s : ℕ) (children : List Child) :
    (Document.spans s children).length = children.length := by
  induction children generalizing s with
  | nil => rfl
  | cons child children ih => rw [spans, length_cons, length_cons, ih]

/-- What is listed stays listed. -/
theorem elements_grow {p p' : Parse} (h : Turns (parseTurn data) p p') :
    p.elements <+: p'.elements := by
  induction h with
  | refl => exact prefix_rfl
  | @tail q q' _ hturn ih =>
    refine ih.trans ?_
    rw [parseTurn] at hturn
    split at hturn
    · cases hnext : opGetNextElement data q.handle q.s with
      | error e =>
        rw [hnext] at hturn
        cases hturn
      | ok cur =>
        rw [hnext] at hturn
        obtain rfl := Option.some.inj (Except.ok.inj hturn)
        dsimp only
        split
        · exact prefix_append _ _
        · exact prefix_rfl
    · cases hturn

/-- A tree that is in error has room left, so `ObexParseCreateTree` never says that it is full. -/
theorem status_ne_treeFull {p p' : Parse} (h : Turns (parseTurn data) p p')
    (hp : p.handle.state ≠ .error) : p'.status ≠ .treeFull := by
  have hroom : p'.handle.state = .error → p'.elements.length < obexParseMaxElements := by
    induction h with
    | refl => exact fun herror => absurd herror hp
    | @tail q q' _ hturn _ =>
      intro herror
      rw [parseTurn] at hturn
      split at hturn
      · next hcont =>
        cases hnext : opGetNextElement data q.handle q.s with
        | error e =>
          rw [hnext] at hturn
          cases hturn
        | ok cur =>
          rw [hnext] at hturn
          obtain rfl := Option.some.inj (Except.ok.inj hturn)
          dsimp only at herror ⊢
          rw [if_neg (not_not_intro herror)]
          exact hcont.2.2
      · cases hturn
  rw [Parse.status]
  split
  · next herror =>
    rw [if_neg (hroom herror).ne]
    exact ObexParseStatus.noConfusion
  · exact ObexParseStatus.noConfusion
  · exact ObexParseStatus.noConfusion

/-- A turn of the parser lets the room that is left fall. -/
theorem room_lt {p p' : Parse} (h : parseTurn data p = .ok (some p')) :
    (if p'.handle.state = .newEntry then obexParseMaxElements - p'.elements.length else 0) <
      if p.handle.state = .newEntry then obexParseMaxElements - p.elements.length else 0 := by
  rw [parseTurn] at h
  split at h
  · next hcont =>
    obtain ⟨-, hstate, hroom⟩ := hcont
    rw [if_pos hstate]
    cases hnext : opGetNextElement data p.handle p.s with
    | error e =>
      rw [hnext] at h
      cases h
    | ok cur =>
      rw [hnext] at h
      obtain rfl := Option.some.inj (Except.ok.inj h)
      dsimp only
      split
      · next hnew =>
        rw [if_pos (by rw [hnew]; exact OpState.noConfusion), length_append,
          length_singleton]
        omega
      · omega
  · cases h

/-- Where `ObexParseCreateTree` is when it has passed over the attributes of the envelope. -/
theorem attrs_turns (doc : Document) (hlen : doc.octets.length < 65536) :
    ∃ p, Turns (parseTurn doc.octets) ⟨⟨.newEntry, true, .xmlObject, 0⟩, 0, []⟩ p ∧
      Lists p.elements doc.attrSpans ∧
      (doc.children ≠ [] ∨ doc.attrs = none → Begins doc.octets p doc.start) ∧
      (doc.children = [] → doc.attrs ≠ none →
        p.handle.state = .newEntry ∧ p.s = doc.octets.length) := by
  cases hattrs : doc.attrs with
  | none =>
    refine ⟨_, .refl, ?_, fun _ => begins_document hattrs, fun _ hne => absurd rfl hne⟩
    rw [Document.attrSpans, hattrs]
    rfl
  | some attrs =>
    obtain ⟨type, hturn⟩ := attrs_turn hattrs hlen
    refine ⟨_, .single hturn, ?_, ?_, ?_⟩
    · rw [Document.attrSpans, hattrs]
      rfl
    · intro hor
      have hne : doc.children ≠ [] := hor.resolve_right (by simp)
      obtain ⟨c, l, hrest, -⟩ := doc.exists_rest
      have hat := doc.at_zero.append
      rw [Nat.zero_add, hrest] at hat
      rw [if_neg hne]
      exact begins_reading hat _
    · intro hnil _
      rw [if_pos hnil]
      exact ⟨rfl, rfl⟩

/-- An element that ends is listed with the length of the tags and texts it has. -/
theorem parseTurn_row {row : Row} {rest : List Tag} (h : Begins data p s)
    (hat : At data s row.octets) (hclosed : row.Closed) (hs : 0 < s)
    (hrest : tagsBehind 0 row.tags = some rest) (hroom : p.elements.length < obexParseMaxElements) :
    ∃ init tag text row', row = init ++ (tag, text) :: row' ∧ Row.tags row' = rest ∧
      ∃ p' type, parseTurn data p = .ok (some p') ∧ p'.elements = p.elements ++
        [⟨.full, type, s, ((Row.octets init).length + tag.octets.length) % 65536⟩] := by
  obtain ⟨el, rfl, hturns⟩ := h.turns
  have hobject : data[el.object]? = some '<' := by
    have hne : row ≠ [] := by
      rintro rfl
      cases hrest
    obtain ⟨l, hl⟩ := Row.exists_octets hne
    rw [hl] at hat
    exact hat.getElem?
  obtain ⟨init, tag, text, row', e, hsplit, htags, hate, type, s', hblank, hended⟩ :=
    row_ends el hat hclosed hrest hobject
  have hpos : e = el.object + ((Row.octets init).length + tag.octets.length) := by
    have hlens := hat.length_eq
    have hlene := hate.length_eq
    rw [hsplit, Row.octets_append init, Row.octets_cons, length_append, length_append]
      at hlens
    omega
  rw [hpos] at hended hblank
  rw [Nat.add_sub_cancel_left] at hended
  have hle : el.object + ((Row.octets init).length + tag.octets.length) ≤ data.length := hpos ▸ hate.1
  obtain ⟨s₁, hs₁, hforward⟩ := opSkipBlank_forward hle
  obtain rfl : s' = s₁ := Except.ok.inj (hblank.symm.trans hs₁)
  obtain ⟨s₂, hs₂, hforward₂⟩ := opEndTagLoop_yields .xmlObject hforward.2 fun _ =>
    hs.trans_le ((Nat.le_add_right _ _).trans hforward.1)
  obtain ⟨s₃, hs₃, -⟩ := opSkipJunk_forward hforward₂.2
  exact ⟨init, tag, text, row', hsplit, htags, _, type, parseTurn_ended ⟨h.lt.ne, h.state, hroom⟩
    h.folds h.lt h.visible (hturns.trans hended) hs₂ hs₃, rfl⟩

theorem Document.spans_append (s : ℕ) (front : List Child) (child : Child) (rest : List Child) :
    spans s (front ++ child :: rest) = spans s front ++
      (s + (childOctets front).length, child.octets.length) ::
        spans (s + (childOctets front).length + child.octets.length) rest := by
  induction front generalizing s with
  | nil => rfl
  | cons first front ih =>
    rw [cons_append, spans, spans, ih, childOctets_cons, length_append, ← Nat.add_assoc s]
    rfl

/-- The first child that is not counted. -/
theorem exists_first (h : ¬ ∀ child ∈ children, child.Counted) :
    ∃ front child rest, children = front ++ child :: rest ∧ (∀ child ∈ front, child.Counted) ∧
      ¬ child.Counted := by
  induction children with
  | nil => exact absurd (by simp) h
  | cons child children ih =>
    by_cases hchild : child.Counted
    · have hrest : ¬ ∀ child ∈ children, child.Counted := fun hall =>
        h (forall_mem_cons.mpr ⟨hchild, hall⟩)
      obtain ⟨front, first, rest, rfl, hfront, hfirst⟩ := ih hrest
      exact ⟨child :: front, first, rest, rfl, forall_mem_cons.mpr ⟨hchild, hfront⟩, hfirst⟩
    · exact ⟨[], child, children, rfl, by simp, hchild⟩

/-- `ObexParseCreateTree` on a document. -/
theorem Document.obexParseCreateTree_eq
    (hxml : (startHandle objType).type = .xmlObject) (hne : objType ≠ .xmlElement) :
    obexParseCreateTree doc.octets objType =
      (Lib.loop .endless (parseTurn doc.octets) (obexParseMaxElements + 1)
          ⟨⟨.newEntry, true, .xmlObject, 0⟩, 0, []⟩ >>= fun p =>
        .ok (p.status, some p.elements)) := by
  have hnil : doc.octets ≠ [] := by
    rw [Document.octets, Tag.octets]
    exact cons_ne_nil _ _
  have hobj : ¬ (objType = .vobjElement ∨ objType = .xmlElement ∨ objType = .unknown) := by
    rintro (rfl | rfl | rfl)
    · cases hxml
    · exact hne rfl
    · cases hxml
  rw [obexParseCreateTree, if_neg hnil, if_neg hobj, Document.parseStart_eq hxml]
  rfl

/-- A tree with all parts in it, made up to the end of the document. -/
theorem finds_of_turns (hxml : (startHandle objType).type = .xmlObject) (hne : objType ≠ .xmlElement)
    (hroom : doc.parts.length ≤ obexParseMaxElements)
    (hturns : Turns (parseTurn doc.octets) ⟨⟨.newEntry, true, .xmlObject, 0⟩, 0, []⟩ p)
    (hstate : p.handle.state = .newEntry) (hend : p.s = doc.octets.length)
    (hlists : Lists p.elements doc.parts) : Finds doc objType := by
  have hstop : parseTurn doc.octets p = .ok none := if_neg fun hcont => hcont.1 hend
  have hloop : Lib.loop .endless (parseTurn doc.octets) (obexParseMaxElements + 1)
      ⟨⟨.newEntry, true, .xmlObject, 0⟩, 0, []⟩ = .ok p :=
    loop_of_rank _ (fun _ _ => room_lt) hturns hstop (by decide)
  have hstatus : p.status = .success := by
    rw [Parse.status, hstate]
  rw [Finds, Document.obexParseCreateTree_eq hxml hne, hloop]
  refine .ok ⟨⟨p.elements, rfl, ?_⟩, ?_⟩
  · rw [take_of_length_le hroom]
    exact hlists
  · rw [if_pos hroom]
    exact hstatus

/-- What `Finds` says of the loop of `ObexParseCreateTree`. -/
theorem Finds.loop (h : Finds doc objType)
    (hxml : (startHandle objType).type = .xmlObject) (hne : objType ≠ .xmlElement) :
    doc.parts.length ≤ obexParseMaxElements ∧ ∃ p,
      Lib.loop .endless (parseTurn doc.octets) (obexParseMaxElements + 1)
        ⟨⟨.newEntry, true, .xmlObject, 0⟩, 0, []⟩ = .ok p ∧
      p.status = .success ∧ Lists p.elements doc.parts := by
  obtain ⟨⟨status, tree⟩, hr, ⟨elements, htree, hlists⟩, hstatus⟩ := h
  rw [Document.obexParseCreateTree_eq hxml hne] at hr
  cases hloop : Lib.loop .endless (parseTurn doc.octets) (obexParseMaxElements + 1)
      ⟨⟨.newEntry, true, .xmlObject, 0⟩, 0, []⟩ with
  | error e =>
    rw [hloop] at hr
    cases hr
  | ok p =>
    rw [hloop] at hr
    obtain ⟨rfl, rfl⟩ := Prod.mk.inj (Except.ok.inj hr)
    obtain rfl := Option.some.inj htree
    have hroom : doc.parts.length ≤ obexParseMaxElements := by
      by_contra hmany
      rw [if_neg hmany] at hstatus
      exact status_ne_treeFull (turns_of_loop hloop).1 OpState.noConfusion hstatus
    rw [if_pos hroom] at hstatus
    rw [take_of_length_le hroom] at hlists
    exact ⟨hroom, p, rfl, hstatus, hlists⟩

/-- The child behind counted ones is counted, if the parser finds it. -/
theorem counted_of_finds {p p' : Parse} {child : Child}
    (hlen : doc.octets.length < 65536) (hchildren : doc.children = front ++ child :: rest)
    (hfront : ∀ child ∈ front, child.Counted)
    (hroom : doc.parts.length ≤ obexParseMaxElements)
    (hattrs : Lists p.elements doc.attrSpans) (hbegins : Begins doc.octets p doc.start)
    (hpath : ∀ q, Turns (parseTurn doc.octets) p q → Turns (parseTurn doc.octets) q p')
    (hstatus : p'.status = .success) (hlists : Lists p'.elements doc.parts) : child.Counted := by
  have hparts : doc.parts.length = p.elements.length + (front.length + (rest.length + 1)) := by
    rw [Document.parts, length_append, ← hattrs.length_eq, Document.length_spans, hchildren,
      length_append, length_cons]
  have hat := doc.at_zero.append
  rw [Nat.zero_add, hchildren] at hat
  -- the parser gets to the child
  obtain ⟨q, hturns, ⟨elements, hq, hfound⟩, hnext, -⟩ :=
    children_turns hbegins hlen hat hfront (by omega)
  have hq' : Begins doc.octets q (doc.start + (Document.childOctets front).length) :=
    hnext (cons_ne_nil _ _)
  have hroom' : q.elements.length < obexParseMaxElements := by
    rw [hq, length_append, hfound.length_eq, Document.length_spans]
    omega
  have hatq : At doc.octets (doc.start + (Document.childOctets front).length)
      (Document.childOctets (child :: rest) ++ (Tag.closing doc.name).octets) := by
    rw [Document.childOctets_append, append_assoc] at hat
    exact hat.append
  obtain ⟨row, hrow, hclosed, htags⟩ := exists_row (child :: rest) doc.name
  obtain ⟨behind, hbehind, -, hbehindTags⟩ := exists_row rest doc.name
  have hpos : 0 < doc.start + (Document.childOctets front).length := by
    rw [Document.start, Tag.octets, length_cons]
    omega
  rw [flatMap_cons, append_assoc, ← hbehindTags] at htags
  have hatrow := hatq
  rw [hrow] at hatrow
  cases hcount : tagsBehind 0 row.tags with
  | none =>
    -- the parser reads to the end in the middle of the element and wants more data
    obtain ⟨el, hobject, henter⟩ := hq'.turns
    obtain ⟨el', folds, hunended⟩ := row_unended el hatrow hclosed hcount
    have hturn := parseTurn_unended ⟨hq'.lt.ne, hq'.state, hroom'⟩ hq'.folds hq'.lt hq'.visible
      (henter.trans hunended)
    have hstop : parseTurn doc.octets ⟨reading .inGetElement folds, doc.octets.length,
        q.elements ++ [el']⟩ = .ok none := if_neg fun hcont => hcont.1 rfl
    rcases (hpath _ (hturns.tail hturn)).cases_head with rfl | ⟨r, hr, -⟩
    · cases hstatus
    · rw [hstop] at hr
      cases hr
  | some tags =>
    obtain ⟨init, tag, text, row', hsplit, rfl, q', type, hturn, hq''⟩ :=
      parseTurn_row hq' hatrow hclosed hpos hcount hroom'
    obtain ⟨more, hmore⟩ := elements_grow (hpath q' (hturns.tail hturn))
    -- the element that is listed has the length of the child
    have hlength : ((Row.octets init).length + tag.octets.length) % 65536 = child.octets.length := by
      rw [Document.parts, hchildren, Document.spans_append, ← append_assoc, ← hmore, hq'', hq,
        append_assoc (p.elements ++ elements)] at hlists
      exact hlists.len_eq (hattrs.append hfound)
    rw [Document.childOctets_cons, append_assoc, hbehind] at hatq
    have hend := hatq.append
    have hlens := hatrow.length_eq
    rw [hsplit, Row.octets_append init, Row.octets_cons, length_append, length_append]
      at hlens
    rw [Nat.mod_eq_of_lt (by omega)] at hlength
    -- so the tags behind it are those behind the child
    have hsame : text.val ++ Row.octets row' = behind.octets := by
      rw [hsplit, Row.octets_append init, Row.octets_cons, ← append_assoc] at hatrow
      have happend := hatrow.append
      rw [length_append, hlength] at happend
      exact happend.2.symm.trans hend.2
    have hbrackets := congrArg (List.count '<') hsame
    rw [count_append, Row.count_octets, Row.count_octets,
      count_eq_zero.mpr fun hmem => (text.property _ hmem).1 rfl, Nat.zero_add] at hbrackets
    rw [htags] at hcount
    exact tagsBehind_of_append hcount (by rw [length_map, length_map, hbrackets])

/-- **The parts of a document.** The parser finds them exactly if there are any, the tree has room
for them and every child is counted. -/
theorem finds_iff (doc : Document) {objType : ObexParseObject}
    (hxml : (startHandle objType).type = .xmlObject) (hne : objType ≠ .xmlElement)
    (hlen : doc.octets.length < 65536) :
    Finds doc objType ↔ doc.parts ≠ [] ∧ doc.parts.length ≤ obexParseMaxElements ∧
      ∀ child ∈ doc.children, child.Counted := by
  obtain ⟨p, hturns, hattrs, hbegins, hend⟩ := attrs_turns doc hlen
  constructor
  · intro hfinds
    obtain ⟨hroom, p', hloop, hstatus, hlists⟩ := hfinds.loop hxml hne
    -- the loop passes through every state that the parser gets to
    have hpath : ∀ q, Turns (parseTurn doc.octets) ⟨⟨.newEntry, true, .xmlObject, 0⟩, 0, []⟩ q →
        Turns (parseTurn doc.octets) q p' := by
      intro q hq
      obtain ⟨m, hm⟩ := loop_of_turns hq hloop
      exact (turns_of_loop hm).1
    refine ⟨fun hnone => ?_, hroom, ?_⟩
    · -- the end tag of the envelope would be listed
      have hcounts := congrArg List.length hnone
      rw [Document.parts, length_append, Document.length_spans, length_nil] at hcounts
      have hchildren : doc.children = [] := eq_nil_of_length_eq_zero (by omega)
      have hattrsNone : doc.attrs = none := by
        cases hcase : doc.attrs with
        | none => rfl
        | some attrs =>
          rw [Document.attrSpans, hcase, Option.toList_some, map_singleton,
            length_singleton] at hcounts
          omega
      obtain ⟨row, hrow, hclosed, htags⟩ := exists_row [] doc.name
      have hat := doc.at_zero.append
      rw [Nat.zero_add, hchildren, hrow] at hat
      have hbehind : tagsBehind 0 row.tags = some [] := by
        rw [htags]
        rfl
      have hbegin := begins_document hattrsNone
      obtain ⟨_, _, _, _, _, _, q, type, hturn, hq⟩ := parseTurn_row hbegin hat hclosed
        (by rw [Document.start, Tag.octets, length_cons]; omega) hbehind (by decide)
      have hprefix := (elements_grow (hpath q (.single hturn))).length_le
      rw [hq, hlists.length_eq, hnone, length_append, length_singleton] at hprefix
      exact absurd hprefix (by simp)
    · by_contra hall
      obtain ⟨front, child, rest, hchildren, hfront, hnot⟩ := exists_first hall
      refine hnot (counted_of_finds hlen hchildren hfront hroom hattrs ?_ ?_ hstatus hlists)
      · exact hbegins (.inl (by rw [hchildren]; simp))
      · exact fun q hq => hpath q (hturns.trans hq)
  · rintro ⟨hsome, hroom, hcounted⟩
    have hparts : doc.parts.length = p.elements.length + doc.children.length := by
      rw [Document.parts, length_append, ← hattrs.length_eq, Document.length_spans]
    by_cases hchildren : doc.children = []
    · have hattrsSome : doc.attrs ≠ none := by
        intro hnone
        refine hsome ?_
        rw [Document.parts, Document.attrSpans, hnone, hchildren]
        rfl
      obtain ⟨hstate, hs⟩ := hend hchildren hattrsSome
      refine finds_of_turns hxml hne hroom hturns hstate hs ?_
      rw [Document.parts, hchildren, Document.spans, append_nil]
      exact hattrs
    · have hat := doc.at_zero.append
      rw [Nat.zero_add, ← append_nil doc.children] at hat
      obtain ⟨p', hturns', ⟨elements, heq, hlists⟩, -, hend'⟩ :=
        children_turns (hbegins (.inl hchildren)) hlen hat hcounted (by omega)
      obtain ⟨hstate, hs⟩ := hend' hchildren rfl
      refine finds_of_turns hxml hne hroom (hturns.trans hturns') hstate hs ?_
      rw [heq]
      exact hattrs.append hlists

/-- `<f v><a n/><b>2</b></f>`. -/
def twoFiles : Document where
  name := ⟨['f'], by decide⟩
  attrs := some ⟨['v'], by decide⟩
  children := [.closed ⟨['a'], by decide⟩ ⟨['n'], by decide⟩,
    .pair ⟨['b'], by decide⟩ none (.text ⟨['2'], by decide⟩ .nil)]
  attrs_begin := by
    rintro attrs ⟨⟩
    exact ⟨'v', [], rfl, by decide⟩

/-- A listing with attributes and two files is found. -/
theorem finds_twoFiles : Finds twoFiles .xmlFolderList := by
  refine (finds_iff twoFiles rfl (by decide) (by decide)).mpr
    ⟨by decide, by decide, fun child hmem => ?_⟩
  rcases mem_cons.mp hmem with rfl | hmem
  · exact Child.counted_closed _ _
  · rw [mem_singleton.mp hmem]
    exact Child.counted_pair _ _ trivial (by decide)

/-- `<f><a/><b>2</b></f>`. -/
def emptyFile : Document where
  name := ⟨['f'], by decide⟩
  attrs := none
  children := [.empty ⟨['a'], by decide⟩,
    .pair ⟨['b'], by decide⟩ none (.text ⟨['2'], by decide⟩ .nil)]
  attrs_begin := by
    rintro attrs ⟨⟩

/-- A tag `<a/>` opens an element that is not closed again: both children and the end tag of the
envelope become one element. -/
theorem not_finds_emptyFile : ¬ Finds emptyFile .xmlFolderList := by
  have hparse : obexParseCreateTree emptyFile.octets .xmlFolderList =
      .ok (.success, some [⟨.full, .xmlFoldedElement, 3, 16⟩]) := by
    decide
  rintro ⟨r, hr, ⟨elements, htree, hlists⟩, -⟩
  rw [hparse] at hr
  obtain rfl := Except.ok.inj hr
  obtain rfl := Option.some.inj htree
  exact absurd hlists.length_eq (by decide)

end Cbps.ObexParse
