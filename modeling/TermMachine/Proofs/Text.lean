import TermMachine.Text.CharacterClass
import TermMachine.Term

/-! # Character classes that exclude each other

What a text is read as is decided by its first characters, so the classes that tokens start with
have to exclude each other. For two tables of code points that is decided by one walk along both.
-/

namespace TermMachine.Text

namespace CodeRange

/-- No code point is in both of two tables that are in ascending order. -/
def apart : List CodeRange → List CodeRange → Bool
  | [], _ => true
  | r :: table, others =>
      match others.dropWhile fun s => s.last < r.first with
      | [] => true
      | s :: others => r.last < s.first && apart table (s :: others)

/-- The ranges of a table as the order gives them: none is empty, and each ends before the later
ones start. -/
structure Ascending (table : List CodeRange) : Prop where
  first_le_last : ∀ r ∈ table, r.first ≤ r.last
  pairwise : table.Pairwise fun r s => r.last < s.first

theorem ascending_of_ordered {bound : Nat} {table : List CodeRange}
    (h : ordered bound table = true) : Ascending table := by
  induction table generalizing bound with
  | nil => exact ⟨nofun, .nil⟩
  | cons r table ih =>
      simp only [ordered, Bool.and_eq_true, decide_eq_true_eq] at h
      obtain ⟨⟨_, nonempty⟩, rest⟩ := h
      have later := ih rest
      exact ⟨List.forall_mem_cons.mpr ⟨nonempty, later.first_le_last⟩,
        .cons (first_le_of_ordered rest) later.pairwise⟩

theorem Ascending.sublist {table table' : List CodeRange} (h : Ascending table)
    (sub : table'.Sublist table) : Ascending table' :=
  ⟨fun r mem => h.first_le_last r (sub.subset mem), h.pairwise.sublist sub⟩

theorem not_holds_of_apart {table others : List CodeRange} (h : Ascending table)
    (h' : Ascending others) (separate : apart table others = true) {n : Nat} {r s : CodeRange}
    (hr : r ∈ table) (hs : s ∈ others) (holds : r.Holds n) : ¬s.Holds n := by
  induction table generalizing others with
  | nil => cases hr
  | cons r₀ table ih =>
      intro holds'
      unfold Holds at holds holds'
      have nonempty := h.first_le_last r₀ List.mem_cons_self
      have reached : r₀.first ≤ r.first := by
        rcases List.mem_cons.mp hr with rfl | hr
        · exact Nat.le_refl _
        · have := (List.pairwise_cons.mp h.pairwise).1 r hr
          omega
      -- What the walk has dropped ends before the first range of the table starts.
      have kept : s ∈ others.dropWhile fun s => s.last < r₀.first := by
        rw [← List.takeWhile_append_dropWhile (p := fun s => s.last < r₀.first) (l := others)] at hs
        apply (List.mem_append.mp hs).resolve_left
        intro dropped
        have := List.all_eq_true.mp List.all_takeWhile s dropped
        simp only [decide_eq_true_eq] at this
        omega
      have sub := List.dropWhile_sublist (l := others) fun s => s.last < r₀.first
      unfold apart at separate
      split at separate
      · next none => simp [none] at kept
      · next s₀ others' some =>
          rw [some] at kept sub
          simp only [Bool.and_eq_true, decide_eq_true_eq] at separate
          obtain ⟨before, separate⟩ := separate
          rcases List.mem_cons.mp hr with rfl | hr
          · have : s₀.first ≤ s.first := by
              rcases List.mem_cons.mp kept with rfl | later
              · exact Nat.le_refl _
              · have ascends := (List.pairwise_cons.mp (h'.sublist sub).pairwise).1 s later
                have := (h'.sublist sub).first_le_last s₀ List.mem_cons_self
                omega
            omega
          · have later := h.sublist (List.sublist_cons_self r₀ table)
            exact ih later (h'.sublist sub) separate hr kept holds'

/-- Tables that are apart have no code point in common. -/
theorem contains_eq_false_of_apart {bound bound' : Nat} {table others : List CodeRange}
    (h : ordered bound table = true) (h' : ordered bound' others = true)
    (separate : apart table others = true) {n : Nat} (inside : contains table n = true) :
    contains others n = false := by
  obtain ⟨r, hr, holds⟩ := (contains_iff h n).mp inside
  apply Bool.eq_false_iff.mpr
  intro inside'
  obtain ⟨s, hs, holds'⟩ := (contains_iff h' n).mp inside'
  exact not_holds_of_apart (ascending_of_ordered h) (ascending_of_ordered h') separate hr hs holds
    holds'

end CodeRange

theorem ne_of_class {accepts : Char → Bool} {c d : Char} (holds : accepts c = true)
    (fails : accepts d = false) : c ≠ d := by
  rintro rfl
  rw [fails] at holds
  exact Bool.noConfusion holds

/-! ## Letters, digits and white space -/

def digitRanges : List CodeRange := [⟨0x30, 0x39⟩]

/-- The tables of the classes are in order. -/
theorem ordered_tables :
    CodeRange.ordered 0 lowercaseRanges = true ∧ CodeRange.ordered 0 uppercaseRanges = true ∧
      CodeRange.ordered 0 alphanumericRanges = true ∧ CodeRange.ordered 0 blankRanges = true ∧
      CodeRange.ordered 0 digitRanges = true := by
  decide +kernel

/-- No character is in two of these classes. -/
theorem apart_tables :
    CodeRange.apart lowercaseRanges uppercaseRanges = true ∧
      CodeRange.apart lowercaseRanges blankRanges = true ∧
      CodeRange.apart lowercaseRanges digitRanges = true ∧
      CodeRange.apart uppercaseRanges blankRanges = true ∧
      CodeRange.apart uppercaseRanges digitRanges = true ∧
      CodeRange.apart digitRanges blankRanges = true := by
  decide +kernel

theorem isDigit_eq_contains (c : Char) : c.isDigit = CodeRange.contains digitRanges c.toNat := by
  apply Bool.eq_iff_iff.mpr
  simp only [Char.isDigit, Char.toNat, CodeRange.contains, digitRanges, Bool.and_eq_true,
    decide_eq_true_eq, UInt32.le_iff_toNat_le, ge_iff_le]
  have first : '0'.val.toNat = 48 := rfl
  have last : '9'.val.toNat = 57 := rfl
  rw [first, last]
  split
  · simp only [Bool.false_eq_true, iff_false]
    omega
  · simp only [Bool.or_false, decide_eq_true_eq]
    omega

variable {c : Char}

theorem isUppercase_of_isLowercase (h : isLowercase c = true) : isUppercase c = false := by
  obtain ⟨ordered, ordered', _⟩ := ordered_tables
  obtain ⟨apart, _⟩ := apart_tables
  exact CodeRange.contains_eq_false_of_apart ordered ordered' apart h

theorem isBlank_of_isLowercase (h : isLowercase c = true) : isBlank c = false := by
  obtain ⟨ordered, _, _, ordered', _⟩ := ordered_tables
  obtain ⟨_, apart, _⟩ := apart_tables
  exact CodeRange.contains_eq_false_of_apart ordered ordered' apart h

theorem isDigit_of_isLowercase (h : isLowercase c = true) : c.isDigit = false := by
  obtain ⟨ordered, _, _, _, ordered'⟩ := ordered_tables
  obtain ⟨_, _, apart, _⟩ := apart_tables
  rw [isDigit_eq_contains]
  exact CodeRange.contains_eq_false_of_apart ordered ordered' apart h

theorem isBlank_of_isUppercase (h : isUppercase c = true) : isBlank c = false := by
  obtain ⟨_, ordered, _, ordered', _⟩ := ordered_tables
  obtain ⟨_, _, _, apart, _⟩ := apart_tables
  exact CodeRange.contains_eq_false_of_apart ordered ordered' apart h

theorem isDigit_of_isUppercase (h : isUppercase c = true) : c.isDigit = false := by
  obtain ⟨_, ordered, _, _, ordered'⟩ := ordered_tables
  obtain ⟨_, _, _, _, apart, _⟩ := apart_tables
  rw [isDigit_eq_contains]
  exact CodeRange.contains_eq_false_of_apart ordered ordered' apart h

theorem isBlank_of_isDigit (h : c.isDigit = true) : isBlank c = false := by
  obtain ⟨_, _, _, ordered', ordered⟩ := ordered_tables
  obtain ⟨_, _, _, _, _, apart⟩ := apart_tables
  rw [isDigit_eq_contains] at h
  exact CodeRange.contains_eq_false_of_apart ordered ordered' apart h

theorem isWordChar_of_isDigit (h : c.isDigit = true) : isWordChar c = true := by
  obtain ⟨_, _, ordered, _, ordered'⟩ := ordered_tables
  rw [isDigit_eq_contains, CodeRange.contains_iff ordered'] at h
  obtain ⟨r, mem, holds⟩ := h
  obtain rfl := List.mem_singleton.mp mem
  have inside : isAlphanumeric c = true :=
    (CodeRange.contains_iff ordered _).mpr ⟨_, List.mem_cons_self, holds⟩
  rw [isWordChar, inside, Bool.true_or]

/-- A token that starts with `c` is not a number, a variable or a closing bracket that could make a
name of an opening one, and there is no white space or line comment in front of it. -/
def startsName (c : Char) : Bool :=
  !(c.isDigit || isUppercase c || isBlank c || c == '_' || c == '%' || c == ']' || c == '\x7d')

theorem startsName_iff : startsName c = true ↔ c.isDigit = false ∧ isUppercase c = false ∧
    isBlank c = false ∧ c ≠ '_' ∧ c ≠ '%' ∧ c ≠ ']' ∧ c ≠ '\x7d' := by
  simp only [startsName, Bool.not_eq_true', Bool.or_eq_false_iff, beq_eq_false_iff_ne, and_assoc]

theorem startsName_of_isLowercase (h : isLowercase c = true) : startsName c = true :=
  startsName_iff.mpr ⟨isDigit_of_isLowercase h, isUppercase_of_isLowercase h,
    isBlank_of_isLowercase h, ne_of_class h (by decide), ne_of_class h (by decide),
    ne_of_class h (by decide), ne_of_class h (by decide)⟩

theorem of_isSymbolChar (h : isSymbolChar c = true) :
    startsName c = true ∧ isLowercase c = false ∧ c ≠ '\'' := by
  have table : symbolChars.all (fun c => startsName c && !isLowercase c && c != '\'') = true := by
    decide
  have fields := List.all_eq_true.mp table c (List.contains_iff_mem.mp h)
  simpa only [Bool.and_eq_true, Bool.not_eq_true', and_assoc, bne_iff_ne] using fields

theorem isSymbolChar_of_isDigit (h : c.isDigit = true) : isSymbolChar c = false := by
  apply Bool.eq_false_iff.mpr
  intro symbol
  exact ne_of_class h (startsName_iff.mp (of_isSymbolChar symbol).1).1 rfl

/-! ## Names -/

theorem escapeChar_ne_nil (c : Char) : escapeChar c ≠ [] := by
  unfold escapeChar
  repeat' split
  all_goals exact List.cons_ne_nil _ _

/-- Names that are written bare are words, symbolic or solitary. -/
theorem bare_cases {name : List Char} (bare : needsQuotes name = false) :
    (∃ c cs, name = c :: cs ∧ isLowercase c = true ∧ cs.all isWordChar = true) ∨
      (name ≠ [] ∧ name ≠ ['.'] ∧ name.all isSymbolChar = true) ∨ name ∈ soloNames := by
  cases name with
  | nil => cases bare
  | cons c cs =>
      unfold needsQuotes at bare
      dsimp only at bare
      split at bare
      · next lower => exact .inl ⟨c, cs, rfl, lower, by simpa using bare⟩
      · simp only [Bool.or_eq_false_iff, beq_eq_false_iff_ne, Bool.not_eq_false',
          Bool.or_eq_true] at bare
        obtain ⟨notStop, solo | symbolic⟩ := bare
        · exact .inr (.inr (List.contains_iff_mem.mp solo))
        · exact .inr (.inl ⟨List.cons_ne_nil c cs, notStop, symbolic⟩)

/-- A name of symbol characters that would be read as the start of a comment. -/
def opensComment (name : List Char) : Bool :=
  name.all isSymbolChar && ['/', '*'].isPrefixOf name

theorem nameText_starts (name : List Char) :
    ∃ c cs, nameText name = c :: cs ∧ startsName c = true := by
  cases quotes : needsQuotes name with
  | true =>
      rw [nameText_of_needsQuotes quotes]
      exact ⟨_, _, rfl, by decide⟩
  | false =>
      rw [nameText_of_bare quotes]
      rcases bare_cases quotes with ⟨c, cs, rfl, lower, _⟩ | ⟨nonempty, _, symbolic⟩ | solo
      · exact ⟨c, cs, rfl, startsName_of_isLowercase lower⟩
      · cases name with
        | nil => exact absurd rfl nonempty
        | cons c cs =>
            rw [List.all_cons, Bool.and_eq_true] at symbolic
            exact ⟨c, cs, rfl, (of_isSymbolChar symbolic.1).1⟩
      · simp only [soloNames, List.mem_cons, List.not_mem_nil, or_false] at solo
        rcases solo with rfl | rfl | rfl | rfl <;> exact ⟨_, _, rfl, by decide⟩

theorem nameText_ne_nil (name : List Char) : nameText name ≠ [] := by
  obtain ⟨c, cs, text, _⟩ := nameText_starts name
  rw [text]
  exact List.cons_ne_nil c cs

/-- Only symbolic names are written with a symbol character in front, and a full stop is not the
whole of one. -/
theorem of_nameText_eq_cons {name cs : List Char} (same : nameText name = c :: cs)
    (symbol : isSymbolChar c = true) :
    name = c :: cs ∧ cs.all isSymbolChar = true ∧ (c = '.' → cs ≠ []) := by
  obtain ⟨_, notLower, notQuote⟩ := of_isSymbolChar symbol
  cases quotes : needsQuotes name with
  | true =>
      rw [nameText_of_needsQuotes quotes] at same
      exact absurd (List.cons.inj same).1.symm notQuote
  | false =>
      rw [nameText_of_bare quotes] at same
      subst same
      rcases bare_cases quotes with ⟨_, _, same, lower, _⟩ | ⟨_, notStop, symbolic⟩ | solo
      · obtain ⟨rfl, rfl⟩ := List.cons.inj same
        exact absurd rfl (ne_of_class lower notLower)
      · rw [List.all_cons, Bool.and_eq_true] at symbolic
        refine ⟨rfl, symbolic.2, ?_⟩
        rintro rfl rfl
        exact notStop rfl
      · simp only [soloNames, List.mem_cons, List.cons.injEq, List.not_mem_nil, or_false] at solo
        rcases solo with ⟨rfl, _⟩ | ⟨rfl, _⟩ | ⟨rfl, _⟩ | ⟨rfl, _⟩ <;> cases symbol

end TermMachine.Text
