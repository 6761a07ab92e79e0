import Mathlib.Data.List.Basic
import Mathlib.Data.List.TakeWhile

/-!
# Documents and their tags

An XML object is an envelope around elements. Its octets are a row of tags with texts between
them, and a parser that counts folds sees nothing but the row: the count goes up at every tag that
begins an element and down at every tag that ends one. `Tag.count` is the count of eight bits
that the OBEX object parser keeps; a tag `<name/>` without attributes goes up only.
-/

namespace Cbps.ObexParse

open List

/-! ### Texts and tags -/

/-- No octet that begins or ends a tag. -/
def IsText (l : List Char) : Prop := ∀ c ∈ l, c ≠ '<' ∧ c ≠ '>' ∧ c ≠ '/'

/-- A text between tags, or the attributes in one. -/
def Text := {l : List Char // IsText l}

/-- The name of an element. -/
def Name := {l : List Char // IsText l ∧ l ≠ [] ∧ ' ' ∉ l}

instance (l : List Char) : Decidable (IsText l) :=
  List.decidableBAll (fun c => c ≠ '<' ∧ c ≠ '>' ∧ c ≠ '/') l

/-- A tag. -/
inductive Tag
  | opening (name : Name) (attrs : Option Text)
  | empty (name : Name)
  | closed (name : Name) (attrs : Text)
  | closing (name : Name)

/-- The octets of attributes in a tag. -/
def attrOctets : Option Text → List Char
  | none => []
  | some attrs => ' ' :: attrs.val

/-- The octets of a tag. -/
def Tag.octets : Tag → List Char
  | opening name attrs => '<' :: (name.val ++ attrOctets attrs ++ ['>'])
  | empty name => '<' :: (name.val ++ ['/', '>'])
  | closed name attrs => '<' :: (name.val ++ ' ' :: attrs.val ++ ['/', '>'])
  | closing name => '<' :: '/' :: (name.val ++ ['>'])

/-- A row of tags, each with the text behind it. -/
abbrev Row := List (Tag × Text)

/-- The octets of a row. -/
def Row.octets (row : Row) : List Char := row.flatMap fun (tag, text) => tag.octets ++ text.val

/-! ### The count -/

/-- What a tag makes of the number of folds, which has eight bits. `none`: the element ends with
this tag. -/
def Tag.count (folds : ℕ) : Tag → Option ℕ
  | opening _ none => some ((folds + 1) % 256)
  | opening _ (some _) => if (folds + 1) % 256 = 0 then none else some ((folds + 1) % 256)
  | empty _ => some ((folds + 1) % 256)
  | closed _ _ => if (folds + 1) % 256 ≤ 1 then none else some ((folds + 1) % 256 - 1)
  | closing _ => if folds ≤ 1 then none else some (folds - 1)

/-- The tags behind the one with which the element ends. -/
def tagsBehind : ℕ → List Tag → Option (List Tag)
  | _, [] => none
  | folds, tag :: tags =>
    match tag.count folds with
    | none => some tags
    | some folds' => tagsBehind folds' tags

variable {folds : ℕ}

theorem tagsBehind_append {tags rest : List Tag} (h : tagsBehind folds tags = some rest)
    (more : List Tag) : tagsBehind folds (tags ++ more) = some (rest ++ more) := by
  induction tags generalizing folds with
  | nil => cases h
  | cons tag tags ih =>
    rw [cons_append]
    rw [tagsBehind] at h ⊢
    cases hcount : tag.count folds with
    | none =>
      rw [hcount] at h
      exact congrArg (fun tags => some (tags ++ more)) (Option.some.inj h)
    | some folds' =>
      rw [hcount] at h
      exact ih h

theorem length_tagsBehind_lt {tags rest : List Tag}
    (h : tagsBehind folds tags = some rest) : rest.length < tags.length := by
  induction tags generalizing folds with
  | nil => cases h
  | cons tag tags ih =>
    rw [tagsBehind] at h
    cases hcount : tag.count folds with
    | none =>
      rw [hcount] at h
      rw [← Option.some.inj h]
      exact Nat.lt_succ_self _
    | some folds' =>
      rw [hcount] at h
      exact (ih h).trans (Nat.lt_succ_self _)

/-- If the element ends right in front of `more`, it ends with the tags before. -/
theorem tagsBehind_of_append {tags more rest : List Tag}
    (h : tagsBehind folds (tags ++ more) = some rest) (hlen : rest.length = more.length) :
    tagsBehind folds tags = some [] := by
  induction tags generalizing folds with
  | nil => exact absurd hlen (length_tagsBehind_lt h).ne
  | cons tag tags ih =>
    rw [cons_append] at h
    rw [tagsBehind] at h ⊢
    cases hcount : tag.count folds with
    | none =>
      rw [hcount] at h
      have hrest : tags ++ more = rest := Option.some.inj h
      have hnil : tags.length = 0 := by
        have hsum := congrArg List.length hrest
        rw [length_append] at hsum
        omega
      rw [eq_nil_of_length_eq_zero hnil]
    | some folds' =>
      rw [hcount] at h
      exact ih h

/-! ### Elements -/

/-- What stands between the tags of an element. -/
inductive Content
  | nil
  | text (text : Text) (rest : Content)
  | empty (name : Name) (rest : Content)
  | closed (name : Name) (attrs : Text) (rest : Content)
  | pair (name : Name) (attrs : Option Text) (content rest : Content)

/-- A child of the envelope: `<name/>`, `<name attrs/>` or `<name attrs>content</name>`. -/
inductive Child
  | empty (name : Name)
  | closed (name : Name) (attrs : Text)
  | pair (name : Name) (attrs : Option Text) (content : Content)

namespace Content

/-- The octets of the content. -/
def octets : Content → List Char
  | nil => []
  | text t rest => t.val ++ rest.octets
  | empty name rest => (Tag.empty name).octets ++ rest.octets
  | closed name attrs rest => (Tag.closed name attrs).octets ++ rest.octets
  | pair name attrs content rest =>
    (Tag.opening name attrs).octets ++ content.octets ++ (Tag.closing name).octets ++ rest.octets

/-- The tags of the content, in the order of the octets. -/
def tags : Content → List Tag
  | nil => []
  | text _ rest => rest.tags
  | empty name rest => .empty name :: rest.tags
  | closed name attrs rest => .closed name attrs :: rest.tags
  | pair name attrs content rest =>
    .opening name attrs :: content.tags ++ .closing name :: rest.tags

/-- How deep elements are nested. -/
def depth : Content → ℕ
  | nil => 0
  | text _ rest => rest.depth
  | empty _ rest => rest.depth
  | closed _ _ rest => max 1 rest.depth
  | pair _ _ content rest => max (content.depth + 1) rest.depth

/-- There is no tag `<name/>`. -/
def NoEmpty : Content → Prop
  | nil => True
  | text _ rest => rest.NoEmpty
  | empty _ _ => False
  | closed _ _ rest => rest.NoEmpty
  | pair _ _ content rest => content.NoEmpty ∧ rest.NoEmpty

/-- Content without tags `<name/>` leaves the count as it was, if the count has room for it. -/
theorem tagsBehind_tags {content : Content} (hno : content.NoEmpty) (hpos : 0 < folds)
    (hdepth : folds + content.depth < 256) (more : List Tag) :
    tagsBehind folds (content.tags ++ more) = tagsBehind folds more := by
  induction content generalizing folds more with
  | nil => rfl
  | text t rest ih => exact ih hno hpos hdepth more
  | empty name rest ih => exact hno.elim
  | closed name attrs rest ih =>
    have hone : folds + 1 < 256 := lt_of_le_of_lt (Nat.add_le_add_left (Nat.le_max_left _ _) _) hdepth
    have hrest : folds + rest.depth < 256 :=
      lt_of_le_of_lt (Nat.add_le_add_left (Nat.le_max_right _ _) _) hdepth
    rw [tags, cons_append, tagsBehind, Tag.count, Nat.mod_eq_of_lt hone, if_neg (by omega)]
    exact ih hno hpos hrest more
  | pair name attrs content rest ihcontent ihrest =>
    have hcontent : folds + 1 + content.depth < 256 := by
      have hle := Nat.le_max_left (content.depth + 1) rest.depth
      rw [depth] at hdepth
      omega
    have hrest : folds + rest.depth < 256 :=
      lt_of_le_of_lt (Nat.add_le_add_left (Nat.le_max_right _ _) _) hdepth
    have hone : folds + 1 < 256 := by omega
    have hopen : (Tag.opening name attrs).count folds = some (folds + 1) := by
      cases attrs with
      | none => rw [Tag.count, Nat.mod_eq_of_lt hone]
      | some attrs => rw [Tag.count, Nat.mod_eq_of_lt hone, if_neg (Nat.succ_ne_zero _)]
    rw [tags, cons_append, cons_append, tagsBehind, hopen, append_assoc]
    dsimp only
    rw [ihcontent hno.1 (Nat.succ_pos _) hcontent, cons_append, tagsBehind, Tag.count,
      if_neg (by omega)]
    exact ihrest hno.2 hpos hrest more

end Content

namespace Child

/-- The octets of a child. -/
def octets : Child → List Char
  | empty name => (Tag.empty name).octets
  | closed name attrs => (Tag.closed name attrs).octets
  | pair name attrs content =>
    (Tag.opening name attrs).octets ++ content.octets ++ (Tag.closing name).octets

/-- The tags of a child. -/
def tags : Child → List Tag
  | empty name => [.empty name]
  | closed name attrs => [.closed name attrs]
  | pair name attrs content => .opening name attrs :: content.tags ++ [.closing name]

/-- The count over the tags of the child ends the element with the last tag. -/
def Counted (child : Child) : Prop := tagsBehind 0 child.tags = some []

/-- A child that is no `<name/>`, contains none and is nested less than 256 deep is counted. -/
theorem counted_closed (name : Name) (attrs : Text) : (closed name attrs).Counted := rfl

theorem counted_pair (name : Name) (attrs : Option Text) {content : Content}
    (hno : content.NoEmpty) (hdepth : content.depth < 255) : (pair name attrs content).Counted := by
  have hopen : (Tag.opening name attrs).count 0 = some 1 := by
    cases attrs <;> rfl
  rw [Counted, tags, cons_append, tagsBehind, hopen]
  dsimp only
  rw [Content.tagsBehind_tags hno Nat.one_pos (by omega)]
  rfl

end Child

/-! ### The rows of elements -/

/-- The empty text. -/
def noText : Text := ⟨[], by simp [IsText]⟩

theorem Row.octets_append (row row' : Row) :
    Row.octets (row ++ row') = row.octets ++ row'.octets := flatMap_append

theorem Row.octets_cons (tag : Tag) (text : Text) (row : Row) :
    Row.octets ((tag, text) :: row) = tag.octets ++ (text.val ++ row.octets) := by
  rw [octets, flatMap_cons, ← octets, append_assoc]

/-- The tags of a row. -/
abbrev Row.tags (row : Row) : List Tag := row.map Prod.fst

/-- Content is a text in front of a row. -/
theorem Content.exists_row (content : Content) : ∃ (text : Text) (row : Row),
    content.octets = text.val ++ row.octets ∧ row.tags = content.tags := by
  induction content with
  | nil => exact ⟨noText, [], rfl, rfl⟩
  | text t rest ih =>
    obtain ⟨text, row, hoctets, htags⟩ := ih
    refine ⟨⟨t.val ++ text.val, fun c hc => ?_⟩, row, ?_, htags⟩
    · exact (mem_append.mp hc).elim (t.property c) (text.property c)
    · rw [octets, hoctets, append_assoc]
  | empty name rest ih =>
    obtain ⟨text, row, hoctets, htags⟩ := ih
    refine ⟨noText, (.empty name, text) :: row, ?_, congrArg (_ :: ·) htags⟩
    rw [octets, hoctets, Row.octets_cons]
    rfl
  | closed name attrs rest ih =>
    obtain ⟨text, row, hoctets, htags⟩ := ih
    refine ⟨noText, (.closed name attrs, text) :: row, ?_, congrArg (_ :: ·) htags⟩
    rw [octets, hoctets, Row.octets_cons]
    rfl
  | pair name attrs content rest ihcontent ihrest =>
    obtain ⟨text, row, hoctets, htags⟩ := ihcontent
    obtain ⟨text', row', hoctets', htags'⟩ := ihrest
    refine ⟨noText, (.opening name attrs, text) :: (row ++ (.closing name, text') :: row'), ?_, ?_⟩
    · rw [octets, hoctets, hoctets', Row.octets_cons, Row.octets_append, Row.octets_cons]
      simp only [noText, nil_append, append_assoc]
    · simp only [Row.tags, map_cons, map_append, tags, htags, htags', cons_append]

/-- A child is a row without text behind its last tag. -/
theorem Child.exists_row (child : Child) : ∃ (init : Row) (tag : Tag),
    child.octets = Row.octets (init ++ [(tag, noText)]) ∧
      Row.tags (init ++ [(tag, noText)]) = child.tags := by
  cases child with
  | empty name => exact ⟨[], .empty name, by simp [octets, Row.octets, noText], rfl⟩
  | closed name attrs => exact ⟨[], .closed name attrs, by simp [octets, Row.octets, noText], rfl⟩
  | pair name attrs content =>
    obtain ⟨text, row, hoctets, htags⟩ := content.exists_row
    refine ⟨(.opening name attrs, text) :: row, .closing name, ?_, ?_⟩
    · rw [octets, hoctets, cons_append, Row.octets_cons, Row.octets_append]
      simp [Row.octets, noText]
    · simp [Row.tags, tags, htags]

/-- Every tag has one `<`, and texts have none. -/
theorem Row.count_octets (row : Row) : row.octets.count '<' = row.length := by
  have htext : ∀ {l : List Char}, IsText l → l.count '<' = 0 := fun hl =>
    count_eq_zero.mpr fun hmem => (hl _ hmem).1 rfl
  have htag : ∀ tag : Tag, tag.octets.count '<' = 1 := by
    intro tag
    cases tag with
    | opening name attrs =>
      have hattrs : (attrOctets attrs).count '<' = 0 := by
        cases attrs with
        | none => rfl
        | some attrs => simp [attrOctets, htext attrs.property]
      simp [Tag.octets, count_append, htext name.property.1, hattrs]
    | empty name | closing name => simp [Tag.octets, count_append, htext name.property.1]
    | closed name attrs =>
      simp [Tag.octets, count_append, htext name.property.1, htext attrs.property]
  induction row with
  | nil => rfl
  | cons entry row ih =>
    obtain ⟨tag, text⟩ := entry
    rw [octets_cons, count_append, count_append, htag, htext text.property, ih,
      length_cons]
    omega

/-! ### Documents -/

/-- An XML object: attributes of the envelope begin with an octet that is no blank. -/
structure Document where
  name : Name
  attrs : Option Text
  children : List Child
  attrs_begin : ∀ attrs' ∈ attrs, ∃ c l, attrs'.val = c :: l ∧
    c ≠ ' ' ∧ c ≠ '\t' ∧ c ≠ '\n' ∧ c ≠ '\r'

namespace Document

/-- The octets of the children. -/
def childOctets (children : List Child) : List Char := children.flatMap Child.octets

theorem childOctets_cons (child : Child) (children : List Child) :
    childOctets (child :: children) = child.octets ++ childOctets children := flatMap_cons

theorem childOctets_append (front rest : List Child) :
    childOctets (front ++ rest) = childOctets front ++ childOctets rest := flatMap_append

/-- The octets of the document. -/
def octets (doc : Document) : List Char :=
  (Tag.opening doc.name doc.attrs).octets ++ childOctets doc.children ++
    (Tag.closing doc.name).octets

/-- The offset of the first child. -/
def start (doc : Document) : ℕ := (Tag.opening doc.name doc.attrs).octets.length

/-- Where children that begin at `start` lie, with their lengths. -/
def spans (start : ℕ) : List Child → List (ℕ × ℕ)
  | [] => []
  | child :: children =>
    (start, child.octets.length) :: spans (start + child.octets.length) children

/-- Where the attributes of the envelope lie, if there are any. -/
def attrSpans (doc : Document) : List (ℕ × ℕ) :=
  doc.attrs.toList.map fun attrs => (doc.name.val.length + 2, attrs.val.length)

end Document

end Cbps.ObexParse
