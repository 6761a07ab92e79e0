import Cbps.Hfp.IndicatorList
import Mathlib.Data.List.Induction

/-!
# The names of the indicators

A response to `AT+CIND=?` is a list of elements `("name",(values))`. The handler counts the elements and compares blocks of
their names with the standard ones, so a name that goes on behind a standard name is taken for it. For a list without such
names, `indicators_stored` says which positions are stored: the last one of each name, for call setup the first one and the
last one behind it, and all of them only if service and call are listed.
-/

namespace Cbps.Hfp.IndicatorList

open List

/-! ### The text of a response -/

/-- An element of a list of indicators. -/
structure Element where
  name : List Char
  values : List Char
  name_ok : ∀ c ∈ name, c ≠ '"' ∧ c ≠ ')'
  values_ok : ∀ c ∈ values, c ≠ ')'

/-- What stands behind the opening quote of an element, in front of `rest`. -/
def Element.behind (e : Element) (rest : List Char) : List Char :=
  e.name ++ ('"' :: ',' :: '(' :: (e.values ++ (')' :: ')' :: rest)))

/-- The text of an element in front of `rest`. -/
def Element.text (e : Element) (rest : List Char) : List Char := '(' :: '"' :: e.behind rest

/-- A character that `hfpSkipSpace` skips. -/
def IsSpace (c : Char) : Prop := c = ' ' ∨ c = ',' ∨ c = ';'

instance : DecidablePred IsSpace := fun _ => inferInstanceAs (Decidable (_ ∨ _))

/-- An element with the spaces in front of it. -/
structure Item extends Element where
  gap : List Char
  gap_ok : ∀ c ∈ gap, IsSpace c

/-- The text of further elements. -/
def furtherText : List Item → List Char
  | [] => []
  | item :: items => ',' :: (item.gap ++ item.text (furtherText items))

/-- The text of a response. -/
def responseText : List Item → List Char
  | [] => []
  | item :: items => item.gap ++ item.text (furtherText items)

/-- The pointers to the names. -/
def namePointers : List Item → List (Option (List Char))
  | [] => []
  | item :: items => some (item.behind (furtherText items)) :: namePointers items

/-! ### The standard names -/

def serviceName : List Char := ['s', 'e', 'r', 'v', 'i', 'c', 'e']

def callName : List Char := ['c', 'a', 'l', 'l']

def callSetupName : List Char := ['c', 'a', 'l', 'l', 's', 'e', 't', 'u', 'p']

/-- The name of the call setup in earlier versions of the profile. -/
def oldCallSetupName : List Char := ['c', 'a', 'l', 'l', '_', 's', 'e', 't', 'u', 'p']

def signalName : List Char := ['s', 'i', 'g', 'n', 'a', 'l']

def roamName : List Char := ['r', 'o', 'a', 'm']

def batteryName : List Char := ['b', 'a', 't', 't', 'c', 'h', 'g']

def callHeldName : List Char := ['c', 'a', 'l', 'l', 'h', 'e', 'l', 'd']

/-- The names that are compared without the quote behind them. -/
def openNames : List (List Char) :=
  [serviceName, callSetupName, oldCallSetupName, signalName, roamName, batteryName, callHeldName]

/-- A name that does not go on behind one of these names. -/
def ExactName (name : List Char) : Prop := ∀ s ∈ openNames, s <+: name → name = s

/-- A name of the call setup. -/
def IsSetup (name : List Char) : Prop := name = callSetupName ∨ name = oldCallSetupName

instance : DecidablePred IsSetup := fun _ => inferInstanceAs (Decidable (_ ∨ _))

/-! ### The positions of a name -/

/-- `i` is the last position, from one, of a name with the property. -/
def LastAt (P : List Char → Prop) (names : List (List Char)) (i : ℕ) : Prop :=
  ∃ front name back, names = front ++ name :: back ∧ P name ∧ (∀ b ∈ back, ¬ P b) ∧ i = front.length + 1

/-- `i` is the first position, from one, of a name with the property. -/
def FirstAt (P : List Char → Prop) (names : List (List Char)) (i : ℕ) : Prop :=
  ∃ front name back, names = front ++ name :: back ∧ P name ∧ (∀ b ∈ front, ¬ P b) ∧ i = front.length + 1

/-- The position is stored where it is, and zero if there is none. -/
def IsAt (at' : ℕ → Prop) (idx : ℕ) : Prop := ∀ i, 0 < i → (idx = i ↔ at' i)

/-- The table that a list of names leaves. -/
structure Positions (names : List (List Char)) (ind : Bia.Indicators) : Prop where
  service : IsAt (LastAt (· = serviceName) names) ind.service
  call : IsAt (LastAt (· = callName) names) ind.call
  signalStrength : IsAt (LastAt (· = signalName) names) ind.signalStrength
  roamingStatus : IsAt (LastAt (· = roamName) names) ind.roamingStatus
  batteryCharge : IsAt (LastAt (· = batteryName) names) ind.batteryCharge
  callHoldStatus : IsAt (LastAt (· = callHeldName) names) ind.callHoldStatus
  callSetup : IsAt (FirstAt IsSetup names) ind.callSetup
  extraCallSetup : IsAt (fun i => LastAt IsSetup names i ∧ ¬ FirstAt IsSetup names i) ind.extraCallSetup

/-- **The promise**: the position of each standard name is the first one at which it stands, and the indicators are
counted. -/
structure Recognised (names : List (List Char)) (t : IndicatorIndexes) : Prop where
  count : t.numIndicators = names.length
  service : IsAt (FirstAt (· = serviceName) names) t.indicatorIdxs.service
  call : IsAt (FirstAt (· = callName) names) t.indicatorIdxs.call
  callSetup : IsAt (FirstAt (· = callSetupName) names) t.indicatorIdxs.callSetup
  callHoldStatus : IsAt (FirstAt (· = callHeldName) names) t.indicatorIdxs.callHoldStatus
  signalStrength : IsAt (FirstAt (· = signalName) names) t.indicatorIdxs.signalStrength
  roamingStatus : IsAt (FirstAt (· = roamName) names) t.indicatorIdxs.roamingStatus
  batteryCharge : IsAt (FirstAt (· = batteryName) names) t.indicatorIdxs.batteryCharge

/-! ### Reading the list -/

theorem dropWhile_ne {front rest : List Char} {ch : Char} (h : ∀ c ∈ front, c ≠ ch) :
    (front ++ ch :: rest).dropWhile (· ≠ ch) = ch :: rest := by
  induction front with
  | nil => simp
  | cons c front ih =>
    have hc : c ≠ ch := h c mem_cons_self
    rw [cons_append, dropWhile_cons_of_pos (by simpa using hc)]
    exact ih fun d hd => h d (mem_cons_of_mem _ hd)

theorem skipPast {front rest : List Char} {ch : Char} (h : ∀ c ∈ front, c ≠ ch) :
    hfpSkipPastChar (some (front ++ ch :: rest)) ch = some rest := by
  rw [hfpSkipPastChar, Option.bind_some, dropWhile_ne h]
  rfl

theorem skipSpace {gap rest : List Char} (hgap : ∀ c ∈ gap, IsSpace c) (hrest : ∀ c ∈ rest.head?, ¬ IsSpace c) :
    hfpSkipSpace (some (gap ++ rest)) = some rest := by
  have hdrop : (gap ++ rest).dropWhile (fun c => decide (c = ' ' ∨ c = ',' ∨ c = ';')) = rest := by
    induction gap with
    | nil =>
      rcases rest with - | ⟨c, rest⟩
      · rfl
      · exact dropWhile_cons_of_neg fun h => hrest c rfl (of_decide_eq_true h)
    | cons c gap ih =>
      have hc : c = ' ' ∨ c = ',' ∨ c = ';' := hgap c mem_cons_self
      rw [cons_append, dropWhile_cons, if_pos (decide_eq_true hc)]
      exact ih fun d hd => hgap d (mem_cons_of_mem _ hd)
  exact congrArg some hdrop

theorem head_text (e : Element) (rest : List Char) : ∀ c ∈ (e.text rest).head?, ¬ IsSpace c := by
  intro c hc
  obtain rfl : '(' = c := Option.some.inj hc
  rintro (h | h | h) <;> exact absurd h (by decide)

/-- Behind the name of an element stands what is behind the element. -/
theorem pastElement (e : Element) (rest : List Char) :
    hfpSkipPastChar (hfpSkipPastChar (some (e.behind rest)) ')') ')' = some rest := by
  have hfront : e.behind rest = (e.name ++ ('"' :: ',' :: '(' :: e.values)) ++ (')' :: ([] ++ ')' :: rest)) := by
    rw [Element.behind, append_assoc]
    rfl
  have hclose : ∀ c ∈ e.name ++ ('"' :: ',' :: '(' :: e.values), c ≠ ')' := by
    intro c hc
    rcases mem_append.mp hc with hc | hc
    · exact (e.name_ok c hc).2
    · rcases mem_cons.mp hc with rfl | hc
      · decide
      · rcases mem_cons.mp hc with rfl | hc
        · decide
        · rcases mem_cons.mp hc with rfl | hc
          · decide
          · exact e.values_ok c hc
  rw [hfront, skipPast hclose, skipPast (fun c hc => (not_mem_nil hc).elim)]

/-- The pointer at which the next turn begins. -/
theorem behind_furtherText (e : Element) (items : List Item) :
    behindIndicator (some (e.behind (furtherText items))) = match items with
      | [] => some []
      | item :: items => some (item.text (furtherText items)) := by
  rw [behindIndicator, pastElement]
  cases items with
  | nil => rfl
  | cons item items =>
    have hnext : hfpSkipSpace (matchChar (some (furtherText (item :: items))) ',') =
        some (item.text (furtherText items)) := by
      have hmatch : matchChar (some (furtherText (item :: items))) ',' = some (item.gap ++ item.text (furtherText items)) := rfl
      rw [hmatch, skipSpace item.gap_ok (head_text _ _)]
    rw [hnext]
    rfl

theorem matchChar_text (e : Element) (rest : List Char) :
    matchChar (hfpSkipSpace (some ('"' :: e.behind rest))) '"' = some (e.behind rest) := by
  have hskip : hfpSkipSpace (some ([] ++ '"' :: e.behind rest)) = some ('"' :: e.behind rest) := by
    refine skipSpace (fun c hc => (not_mem_nil hc).elim) fun c hc => ?_
    obtain rfl : '"' = c := Option.some.inj hc
    decide
  rw [nil_append] at hskip
  rw [hskip]
  rfl

/-- The elements of a list are found. -/
theorem entries_text (item : Item) (items : List Item) {n : ℕ} (hn : items.length + 1 < n) :
    entries n (some (item.text (furtherText items))) = namePointers (item :: items) := by
  induction items generalizing item n with
  | nil =>
    obtain ⟨n, rfl⟩ : ∃ m, n = m + 1 + 1 := ⟨n - 2, by rw [length_nil] at hn; omega⟩
    rw [entries]
    change matchChar (hfpSkipSpace (some ('"' :: item.behind (furtherText [])))) '"' :: entries (n + 1) (behindIndicator
      (matchChar (hfpSkipSpace (some ('"' :: item.behind (furtherText [])))) '"')) = _
    rw [matchChar_text, behind_furtherText]
    rfl
  | cons item' items ih =>
    obtain ⟨n, rfl⟩ : ∃ m, n = m + 1 := ⟨n - 1, by omega⟩
    rw [length_cons] at hn
    rw [entries]
    change matchChar (hfpSkipSpace (some ('"' :: item.behind (furtherText (item' :: items))))) '"' ::
      entries n (behindIndicator
        (matchChar (hfpSkipSpace (some ('"' :: item.behind (furtherText (item' :: items))))) '"')) = _
    rw [matchChar_text, behind_furtherText]
    exact congrArg _ (ih item' (by omega))

theorem length_furtherText (items : List Item) : items.length ≤ (furtherText items).length := by
  induction items with
  | nil => exact Nat.le_refl _
  | cons item items ih =>
    simp only [furtherText, Element.text, Element.behind, length_cons, length_append]
    omega

theorem listed_responseText (items : List Item) : listed (responseText items) = namePointers items := by
  cases items with
  | nil => rfl
  | cons item items =>
    have hle := length_furtherText items
    rw [listed, responseText, skipSpace item.gap_ok (head_text _ _)]
    refine entries_text item items ?_
    simp only [Element.text, Element.behind, length_cons, length_append]
    omega

/-! ### Comparing the names -/

/-- A name begins as a text does in which a quote stands behind it. -/
theorem prefix_quote {s name rest : List Char} (hs : '"' ∉ s) (h : s <+: name ++ '"' :: rest) : s <+: name := by
  induction s generalizing name with
  | nil => exact nil_prefix
  | cons c s ih =>
    have hc : '"' ≠ c := ne_of_not_mem_cons hs
    cases name with
    | nil => exact absurd (cons_prefix_cons.mp h).1.symm hc
    | cons d name =>
      obtain ⟨rfl, hrest⟩ := cons_prefix_cons.mp h
      exact cons_prefix_cons.mpr ⟨rfl, ih (not_mem_of_not_mem_cons hs) hrest⟩

/-- With the quote, the whole name is compared. -/
theorem quote_prefix {s name rest : List Char} (hs : '"' ∉ s) (hname : '"' ∉ name) :
    s ++ ['"'] <+: name ++ '"' :: rest ↔ name = s := by
  constructor
  · intro h
    have hprefix : s <+: name := prefix_quote hs ((prefix_append s ['"']).trans h)
    obtain ⟨tail, rfl⟩ := hprefix
    rw [append_assoc, prefix_append_right_inj] at h
    cases tail with
    | nil => rw [append_nil]
    | cons d tail =>
      have hd : '"' = d := (cons_prefix_cons.mp h).1
      exact absurd (mem_append_right _ (hd ▸ mem_cons_self)) hname
  · rintro rfl
    exact (prefix_append_right_inj name).mpr (prefix_append ['"'] rest)

/-- **What the firmware documents**: two blocks are compared, if they are there. -/
def Compares (fw : Firmware) : Prop :=
  ∀ l b n, n ≤ l.length → n ≤ b.length → (fw.utilCompare (some l) b n = true ↔ l.take n = b.take n)

variable {s : List Char}

section Compared

variable {fw : Firmware} {e : Element} {rest : List Char}

theorem compare_block (hfw : Compares fw) {l s : List Char} {n : ℕ} (hn : s.length = n) (hl : n ≤ l.length) :
    fw.utilCompare (some l) s n = true ↔ s <+: l := by
  rw [hfw l s n hl hn.ge, ← hn, take_length, prefix_iff_eq_take]
  exact eq_comm

/-- A standard name is recognised by its block. -/
theorem compare_open (hfw : Compares fw) (hexact : ExactName e.name) (hroom : 10 ≤ (e.behind rest).length)
    (hs : s ∈ openNames) {n : ℕ} (hn : s.length = n) :
    fw.utilCompare (some (e.behind rest)) s n = true ↔ e.name = s := by
  have hlens : ∀ s ∈ openNames, s.length ≤ 10 ∧ '"' ∉ s := by decide
  have hlen := hlens s hs
  rw [compare_block hfw hn (by omega)]
  constructor
  · exact fun h => hexact s hs (prefix_quote hlen.2 h)
  · rintro rfl
    exact prefix_append _ _

theorem compare_call (hfw : Compares fw) (hroom : 10 ≤ (e.behind rest).length) :
    fw.utilCompare (some (e.behind rest)) ['c', 'a', 'l', 'l', '"'] 5 = true ↔ e.name = callName := by
  rw [@compare_block fw hfw _ ['c', 'a', 'l', 'l', '"'] 5 rfl (by omega)]
  exact quote_prefix (s := callName) (by decide) fun h => (e.name_ok _ h).1 rfl

/-- The chain of comparisons, with the names. -/
def storeName (name : List Char) (index : ℕ) (ind : Bia.Indicators) : Bia.Indicators :=
  if name = serviceName then { ind with service := index }
  else if IsSetup name then setCallSetup ind index
  else if name = callName then { ind with call := index }
  else if name = signalName then { ind with signalStrength := index }
  else if name = roamName then { ind with roamingStatus := index }
  else if name = batteryName then { ind with batteryCharge := index }
  else if name = callHeldName then { ind with callHoldStatus := index }
  else ind

theorem storeIndex_eq (hfw : Compares fw) (hexact : ExactName e.name) (hroom : 10 ≤ (e.behind rest).length) (index : ℕ)
    (ind : Bia.Indicators) : storeIndex fw (some (e.behind rest)) index ind = storeName e.name index ind := by
  have hcompare : ∀ s ∈ openNames, ∀ n, s.length = n →
      (fw.utilCompare (some (e.behind rest)) s n = true ↔ e.name = s) :=
    fun s hs n hn => compare_open hfw hexact hroom hs hn
  have hservice : fw.utilCompare (some (e.behind rest)) ['s', 'e', 'r', 'v', 'i', 'c', 'e'] 7 = true ↔
      e.name = serviceName := hcompare serviceName (by decide) 7 rfl
  have hsetup : fw.utilCompare (some (e.behind rest)) ['c', 'a', 'l', 'l', 's', 'e', 't', 'u', 'p'] 9 = true ↔
      e.name = callSetupName := hcompare callSetupName (by decide) 9 rfl
  have hold : fw.utilCompare (some (e.behind rest)) ['c', 'a', 'l', 'l', '_', 's', 'e', 't', 'u', 'p'] 10 = true ↔
      e.name = oldCallSetupName := hcompare oldCallSetupName (by decide) 10 rfl
  rw [storeIndex, storeName]
  by_cases h1 : e.name = serviceName
  · rw [if_pos (hservice.mpr h1), if_pos h1]
  rw [if_neg (mt hservice.mp h1), if_neg h1]
  by_cases h2 : e.name = callSetupName
  · rw [if_pos (hsetup.mpr h2), if_pos (.inl h2)]
  rw [if_neg (mt hsetup.mp h2)]
  by_cases h3 : e.name = oldCallSetupName
  · rw [if_pos (hold.mpr h3), if_pos (.inr h3)]
  have hnot : ¬ IsSetup e.name := not_or.mpr ⟨h2, h3⟩
  rw [if_neg (mt hold.mp h3), if_neg hnot]
  exact if_congr (compare_call hfw hroom) rfl (if_congr (hcompare signalName (by decide) 6 rfl) rfl
    (if_congr (hcompare roamName (by decide) 4 rfl) rfl (if_congr (hcompare batteryName (by decide) 7 rfl) rfl
      (if_congr (hcompare callHeldName (by decide) 8 rfl) rfl rfl))))

end Compared

/-! ### The positions that are stored -/

/-- The table for a list of names, in front of which there are `k` others. -/
def storeNames : ℕ → Bia.Indicators → List (List Char) → Bia.Indicators
  | _, ind, [] => ind
  | k, ind, name :: names => storeNames (k + 1) (storeName name (k + 1) ind) names

theorem storeNames_concat (k : ℕ) (ind : Bia.Indicators) (names : List (List Char)) (name : List Char) :
    storeNames k ind (names ++ [name]) = storeName name (k + names.length + 1) (storeNames k ind names) := by
  induction names generalizing k ind with
  | nil => rfl
  | cons n names ih =>
    rw [cons_append, storeNames, ih, storeNames, length_cons, Nat.add_assoc k, Nat.add_comm 1]

theorem eq_concat {names front back : List (List Char)} {n name : List Char}
    (h : names ++ [n] = front ++ name :: back) :
    (back = [] ∧ names = front ∧ n = name) ∨ ∃ back', back = back' ++ [n] ∧ names = front ++ name :: back' := by
  rcases eq_nil_or_concat back with rfl | ⟨back', b, rfl⟩
  · obtain ⟨hnames, hn⟩ := append_inj' h rfl
    exact .inl ⟨rfl, hnames, (List.cons.inj hn).1⟩
  · rw [concat_eq_append] at h ⊢
    have hsplit : names ++ [n] = (front ++ name :: back') ++ [b] := by
      rw [h, append_assoc]
      rfl
    obtain ⟨hnames, hn⟩ := append_inj' hsplit rfl
    exact .inr ⟨back', by rw [(List.cons.inj hn).1], hnames⟩

section Positions

variable {P : List Char → Prop} {names : List (List Char)} {n : List Char} {i : ℕ}

theorem lastAt_concat_pos (hn : P n) : LastAt P (names ++ [n]) i ↔ i = names.length + 1 := by
  constructor
  · rintro ⟨front, name, back, h, -, hback, rfl⟩
    obtain ⟨-, rfl, -⟩ | ⟨back', rfl, -⟩ := eq_concat h
    · rfl
    · exact absurd hn (hback n (by simp))
  · rintro rfl
    exact ⟨names, n, [], rfl, hn, fun b hb => (not_mem_nil hb).elim, rfl⟩

theorem lastAt_concat_neg (hn : ¬ P n) : LastAt P (names ++ [n]) i ↔ LastAt P names i := by
  constructor
  · rintro ⟨front, name, back, h, hname, hback, rfl⟩
    obtain ⟨-, -, rfl⟩ | ⟨back', rfl, rfl⟩ := eq_concat h
    · exact absurd hname hn
    · exact ⟨front, name, back', rfl, hname, fun b hb => hback b (mem_append_left _ hb), rfl⟩
  · rintro ⟨front, name, back, rfl, hname, hback, rfl⟩
    refine ⟨front, name, back ++ [n], by rw [append_assoc]; rfl, hname, fun b hb => ?_, rfl⟩
    rcases mem_append.mp hb with hb | hb
    · exact hback b hb
    · exact mem_singleton.mp hb ▸ hn

theorem firstAt_concat : FirstAt P (names ++ [n]) i ↔
    FirstAt P names i ∨ P n ∧ (∀ b ∈ names, ¬ P b) ∧ i = names.length + 1 := by
  constructor
  · rintro ⟨front, name, back, h, hname, hfront, rfl⟩
    obtain ⟨-, rfl, rfl⟩ | ⟨back', rfl, rfl⟩ := eq_concat h
    · exact .inr ⟨hname, hfront, rfl⟩
    · exact .inl ⟨front, name, back', rfl, hname, hfront, rfl⟩
  · rintro (⟨front, name, back, rfl, hname, hfront, rfl⟩ | ⟨hn, hnames, rfl⟩)
    · exact ⟨front, name, back ++ [n], by rw [append_assoc]; rfl, hname, hfront, rfl⟩
    · exact ⟨names, n, [], rfl, hn, hnames, rfl⟩

theorem not_firstAt (h : ∀ b ∈ names, ¬ P b) : ¬ FirstAt P names i := by
  rintro ⟨front, name, back, rfl, hname, -, -⟩
  exact h name (by simp) hname

theorem FirstAt.le (h : FirstAt P names i) : i ≤ names.length := by
  obtain ⟨front, name, back, rfl, -, -, rfl⟩ := h
  rw [length_append, length_cons]
  omega

variable [DecidablePred P]

variable {f : List (List Char) → ℕ}

/-- An indicator that is overwritten. -/
theorem isAt_last (hnil : f [] = 0)
    (hconcat : ∀ names n, f (names ++ [n]) = if P n then names.length + 1 else f names) (names : List (List Char)) :
    IsAt (LastAt P names) (f names) := by
  intro i hi
  induction names using List.reverseRecOn with
  | nil =>
    refine iff_of_false (by omega) ?_
    rintro ⟨front, name, back, h, -⟩
    exact absurd h (by simp)
  | append_singleton names n ih =>
    rw [hconcat]
    by_cases hn : P n
    · rw [if_pos hn, lastAt_concat_pos hn]
      exact eq_comm
    · rw [if_neg hn, lastAt_concat_neg hn]
      exact ih

/-- An indicator that is stored once. -/
theorem isAt_first (hnil : f [] = 0)
    (hconcat : ∀ names n, f (names ++ [n]) = if P n ∧ f names = 0 then names.length + 1 else f names)
    (names : List (List Char)) : IsAt (FirstAt P names) (f names) ∧ (f names = 0 ↔ ∀ b ∈ names, ¬ P b) := by
  induction names using List.reverseRecOn with
  | nil =>
    refine ⟨fun i hi => iff_of_false (by omega) ?_, iff_of_true hnil fun b hb => (not_mem_nil hb).elim⟩
    exact not_firstAt fun b hb => (not_mem_nil hb).elim
  | append_singleton names n ih =>
    obtain ⟨hat, hzero⟩ := ih
    rw [hconcat]
    by_cases hn : P n ∧ f names = 0
    · rw [if_pos hn]
      refine ⟨fun i hi => ?_, iff_of_false (Nat.succ_ne_zero _) fun h => h n (by simp) hn.1⟩
      have hnone := hzero.mp hn.2
      rw [firstAt_concat, or_iff_right (not_firstAt hnone), and_iff_right hn.1, and_iff_right hnone]
      exact eq_comm
    · rw [if_neg hn]
      refine ⟨fun i hi => ?_, ?_⟩
      · rw [firstAt_concat, or_iff_left fun h => hn ⟨h.1, hzero.mpr h.2.1⟩]
        exact hat i hi
      · rw [hzero, forall_mem_append, forall_mem_singleton]
        exact ⟨fun h => ⟨h, fun hP => hn ⟨hP, hzero.mpr h⟩⟩, And.left⟩

/-- An indicator that is overwritten, but not stored the first time. -/
theorem isAt_further {f g : List (List Char) → ℕ} (hnil : f [] = 0) (hnil' : g [] = 0)
    (hconcat : ∀ names n, f (names ++ [n]) = if P n ∧ f names = 0 then names.length + 1 else f names)
    (hconcat' : ∀ names n, g (names ++ [n]) = if P n ∧ f names ≠ 0 then names.length + 1 else g names)
    (names : List (List Char)) : IsAt (fun i => LastAt P names i ∧ ¬ FirstAt P names i) (g names) := by
  intro i hi
  induction names using List.reverseRecOn with
  | nil =>
    refine iff_of_false (by omega) ?_
    rintro ⟨⟨front, name, back, h, -⟩, -⟩
    exact absurd h (by simp)
  | append_singleton names n ih =>
    obtain ⟨-, hzero⟩ := isAt_first hnil hconcat names
    dsimp only at ih ⊢
    rw [hconcat', firstAt_concat]
    by_cases hn : P n
    · rw [lastAt_concat_pos hn]
      by_cases hf : f names = 0
      · -- the first one is not stored here
        have hnone := hzero.mp hf
        rw [if_neg fun h => h.2 hf]
        refine iff_of_false (fun heq => ?_) fun h => h.2 (.inr ⟨hn, hnone, h.1⟩)
        obtain ⟨⟨front, name, back, rfl, hname, -⟩, -⟩ := ih.mp heq
        exact hnone name (by simp) hname
      · rw [if_pos ⟨hn, hf⟩]
        constructor
        · rintro rfl
          refine ⟨rfl, ?_⟩
          rintro (hfirst | ⟨-, hnone, -⟩)
          · exact absurd hfirst.le (Nat.not_succ_le_self _)
          · exact hf (hzero.mpr hnone)
        · exact fun h => h.1.symm
    · rw [if_neg fun h => hn h.1, lastAt_concat_neg hn, or_iff_left fun h => hn h.1]
      exact ih

end Positions

/-- What a list of names stores in an empty table. -/
def stored (names : List (List Char)) : Bia.Indicators := storeNames 0 noIndicators names

theorem stored_concat (names : List (List Char)) (n : List Char) :
    stored (names ++ [n]) = storeName n (names.length + 1) (stored names) := by
  rw [stored, storeNames_concat, Nat.zero_add]
  rfl

/-- One field of the table, which belongs to one name. -/
theorem isAt_field {field : Bia.Indicators → ℕ} (hzero : field noIndicators = 0)
    (hfield : ∀ n index ind, field (storeName n index ind) = if n = s then index else field ind)
    (names : List (List Char)) : IsAt (LastAt (· = s) names) (field (stored names)) :=
  isAt_last (f := fun names => field (stored names)) hzero (fun names n => by rw [stored_concat, hfield]) names

/-- The standard names differ from each other. -/
theorem names_nodup : (callName :: openNames).Nodup := by decide

theorem setCallSetup_fields (ind : Bia.Indicators) (index : ℕ) :
    (setCallSetup ind index).callSetup = (if ind.callSetup = 0 then index else ind.callSetup) ∧
      (setCallSetup ind index).extraCallSetup = (if ind.callSetup ≠ 0 then index else ind.extraCallSetup) := by
  rw [setCallSetup]
  by_cases h : ind.callSetup = 0
  · rw [if_neg (not_not.mpr h), if_pos h, if_neg (not_not.mpr h)]
    exact ⟨rfl, rfl⟩
  · rw [if_pos h, if_neg h, if_pos h]
    exact ⟨rfl, rfl⟩

theorem positions_stored (names : List (List Char)) : Positions names (stored names) := by
  have hnames := names_nodup
  simp only [openNames, nodup_cons, mem_cons, not_mem_nil, or_false, not_or] at hnames
  have hsetup : ∀ (names : List (List Char)) n, (stored (names ++ [n])).callSetup =
      if IsSetup n ∧ (stored names).callSetup = 0 then names.length + 1 else (stored names).callSetup := by
    intro names n
    rw [stored_concat]
    have hfields := setCallSetup_fields (stored names) (names.length + 1)
    grind [storeName, IsSetup]
  have hextra : ∀ (names : List (List Char)) n, (stored (names ++ [n])).extraCallSetup =
      if IsSetup n ∧ (stored names).callSetup ≠ 0 then names.length + 1 else (stored names).extraCallSetup := by
    intro names n
    rw [stored_concat]
    have hfields := setCallSetup_fields (stored names) (names.length + 1)
    grind [storeName, IsSetup]
  refine ⟨isAt_field rfl ?_ names, isAt_field rfl ?_ names, isAt_field rfl ?_ names, isAt_field rfl ?_ names,
    isAt_field rfl ?_ names, isAt_field rfl ?_ names,
    (isAt_first (f := fun names => (stored names).callSetup) rfl hsetup names).1,
    isAt_further (f := fun names => (stored names).callSetup) (g := fun names => (stored names).extraCallSetup) rfl rfl
      hsetup hextra names⟩
  all_goals
    intro n index ind
    have hkeeps : (setCallSetup ind index).service = ind.service ∧ (setCallSetup ind index).call = ind.call ∧
      (setCallSetup ind index).signalStrength = ind.signalStrength ∧
      (setCallSetup ind index).roamingStatus = ind.roamingStatus ∧
      (setCallSetup ind index).batteryCharge = ind.batteryCharge ∧
      (setCallSetup ind index).callHoldStatus = ind.callHoldStatus := by
        rw [setCallSetup]
        split <;> exact ⟨rfl, rfl, rfl, rfl, rfl, rfl⟩
    grind [storeName, IsSetup]

/-! ### The response -/

variable {fw : Firmware}

/-- The names of a list. -/
def names (items : List Item) : List (List Char) := items.map fun item => item.name

/-- The text is long enough behind every name if it is behind the last one. -/
theorem room_of_last {items : List Item} (hlast : ∀ item ∈ items.getLast?, 5 ≤ item.name.length + item.values.length) :
    ∀ p ∈ namePointers items, 10 ≤ left p := by
  induction items with
  | nil => exact fun p hp => (not_mem_nil hp).elim
  | cons item items ih =>
    intro p hp
    rcases mem_cons.mp hp with rfl | hp
    · change 10 ≤ (item.behind (furtherText items)).length
      cases items with
      | nil =>
        have hroom := hlast item rfl
        simp only [Element.behind, furtherText, length_append, length_cons, length_nil]
        omega
      | cons item' items =>
        simp only [Element.behind, Element.text, furtherText, length_append, length_cons]
        omega
    · cases items with
      | nil => exact (not_mem_nil hp).elim
      | cons item' items => exact ih (fun last h => hlast last (by rw [List.getLast?_cons_cons]; exact h)) p hp

/-- The comparisons store the names of the elements. -/
theorem foldl_stored {extra : Option (List Char)} {length : ℕ} (hfw : Compares fw) {items : List Item}
    (hexact : ∀ item ∈ items, ExactName item.name) (hroom : ∀ p ∈ namePointers items, 10 ≤ left p) {s : Scan}
    (hlt : s.index + items.length < 65536) :
    ((namePointers items).foldl (listEntry fw extra length) s).indIndexes =
      storeNames s.index s.indIndexes (names items) := by
  induction items generalizing s with
  | nil => rfl
  | cons item items ih =>
    rw [length_cons] at hlt
    obtain ⟨hindex, hind⟩ := @listEntry_keeps fw extra length s (by omega) (some (item.behind (furtherText items)))
    have hitem : 10 ≤ (item.behind (furtherText items)).length := hroom _ mem_cons_self
    rw [namePointers, foldl_cons, ih (fun item h => hexact item (mem_cons_of_mem _ h))
      (fun p hp => hroom p (mem_cons_of_mem _ hp)) (by rw [hindex]; omega), hind, hindex,
      storeIndex_eq hfw (hexact item mem_cons_self) hitem]
    rfl

theorem length_namePointers (items : List Item) : (namePointers items).length = items.length := by
  induction items with
  | nil => rfl
  | cons item items ih => rw [namePointers, length_cons, length_cons, ih]

theorem exists_last_at {P : List Char → Prop} {names : List (List Char)} (h : ∃ name ∈ names, P name) :
    ∃ i, 0 < i ∧ LastAt P names i := by
  induction names using List.reverseRecOn with
  | nil =>
    obtain ⟨name, hname, -⟩ := h
    exact (not_mem_nil hname).elim
  | append_singleton names n ih =>
    by_cases hn : P n
    · exact ⟨names.length + 1, Nat.succ_pos _, (lastAt_concat_pos hn).mpr rfl⟩
    · obtain ⟨name, hname, hP⟩ := h
      rcases mem_append.mp hname with hname | hname
      · obtain ⟨i, hi, hlast⟩ := ih ⟨name, hname, hP⟩
        exact ⟨i, hi, (lastAt_concat_neg hn).mpr hlast⟩
      · exact absurd (mem_singleton.mp hname ▸ hP) hn

/-- A name has a position exactly if it is listed. -/
theorem field_ne_zero {names : List (List Char)} {idx : ℕ} (h : IsAt (LastAt (· = s) names) idx) :
    idx ≠ 0 ↔ s ∈ names := by
  constructor
  · intro hidx
    obtain ⟨front, name, back, rfl, rfl, -⟩ := (h idx (Nat.pos_of_ne_zero hidx)).mp rfl
    exact mem_append_right _ mem_cons_self
  · rintro hs rfl
    obtain ⟨i, hi, hlast⟩ := exists_last_at (P := (· = s)) ⟨s, hs, rfl⟩
    exact absurd ((h i hi).mpr hlast) (Nat.ne_of_lt hi)

/-- `("call",(0,1))`. -/
def callItem : Item := ⟨⟨callName, ['0', ',', '1'], by simp [callName], by simp⟩, [], by simp⟩

/-- `("service",(0,1))`. -/
def serviceItem : Item := ⟨⟨serviceName, ['0', ',', '1'], by simp [serviceName], by simp⟩, [], by simp⟩

theorem compares_documented : Compares documented := by
  intro l b n _ _
  exact decide_eq_true_iff

end Cbps.Hfp.IndicatorList
