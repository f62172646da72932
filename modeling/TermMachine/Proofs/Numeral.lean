import TermMachine.Numeral

/-! # Numerals and their digits

Numerals that come from digits have no zero at the end of the fraction. Such a numeral is written
with the digits of the mantissa, and these are read back as the numeral without its sign.
-/

namespace TermMachine

namespace Numeral

variable {ds ds' : List Char} {d : Char}

theorem magnitude?_eq (nonempty : ds ≠ []) (all : ds.all Char.isDigit = true) :
    magnitude? ds = some (Nat.ofDigitChars 10 ds 0) := by
  cases ds with
  | nil => exact absurd rfl nonempty
  | cons d ds =>
      have digits := List.all_eq_true.mp all
      have grouped : ds.all (fun d => d.isDigit || d == '_') = true := by
        apply List.all_eq_true.mpr
        intro d' mem
        rw [digits d' (List.mem_cons_of_mem d mem), Bool.true_or]
      have kept : (d :: ds).filter (· != '_') = d :: ds := by
        apply List.filter_eq_self.mpr
        intro d' mem
        apply bne_iff_ne.mpr
        rintro rfl
        exact absurd (digits '_' mem) (by decide)
      rw [magnitude?, digits d List.mem_cons_self, grouped, kept]
      rfl

theorem integer?_eq (nonempty : ds ≠ []) (all : ds.all Char.isDigit = true) :
    integer? ds = some (Nat.ofDigitChars 10 ds 0 : Int) := by
  have unsigned : integer? ds = (magnitude? ds).map fun n => (n : Int) := by
    unfold integer?
    split
    · simp at all
    · simp at all
    · rfl
  rw [unsigned, magnitude?_eq nonempty all]
  rfl

theorem ofDigitChars_concat (ds : List Char) (d : Char) :
    Nat.ofDigitChars 10 (ds ++ [d]) 0 = 10 * Nat.ofDigitChars 10 ds 0 + (d.toNat - '0'.toNat) := by
  rw [Nat.ofDigitChars_append, Nat.ofDigitChars_cons, Nat.ofDigitChars_nil]

/-! ## Fractions -/

def Trimmed (ds : List Char) : Prop := ∀ ds', ds ≠ ds' ++ ['0']

theorem trimmed_trimFraction (ds : List Char) : Trimmed (trimFraction ds) := by
  intro ds' same
  unfold trimFraction at same
  have reversed := congrArg List.reverse same
  rw [List.reverse_reverse, List.reverse_append] at reversed
  have first := List.head?_dropWhile_not (· == '0') ds.reverse
  rw [reversed] at first
  simp at first

theorem trimFraction_of_trimmed (trimmed : Trimmed ds) : trimFraction ds = ds := by
  unfold trimFraction
  cases reversed : ds.reverse with
  | nil => simpa using reversed
  | cons d ds' =>
      have last : ds = ds'.reverse ++ [d] := by
        rw [← List.reverse_reverse ds, reversed, List.reverse_cons]
      have nonzero : d ≠ '0' := by
        rintro rfl
        exact trimmed _ last
      rw [List.dropWhile_cons_of_neg (by simpa using nonzero), List.reverse_cons, last]

theorem all_trimFraction (all : ds.all Char.isDigit = true) :
    (trimFraction ds).all Char.isDigit = true := by
  apply List.all_eq_true.mpr
  intro d mem
  have inside := List.mem_reverse.mp ((List.dropWhile_sublist _).subset (List.mem_reverse.mp mem))
  exact List.all_eq_true.mp all d inside

theorem toNat_of_isDigit (digit : d.isDigit = true) : 48 ≤ d.toNat ∧ d.toNat ≤ 57 := by
  simp only [Char.isDigit, Bool.and_eq_true, decide_eq_true_eq, ge_iff_le,
    UInt32.le_iff_toNat_le] at digit
  exact digit

theorem trimmed_concat_iff : Trimmed (ds ++ [d]) ↔ d ≠ '0' := by
  constructor
  · rintro trimmed rfl
    exact trimmed ds rfl
  · intro nonzero ds' same
    have last := congrArg List.getLast? same
    rw [List.getLast?_concat, List.getLast?_concat] at last
    exact nonzero (Option.some.inj last)

theorem trimmed_append_iff (ds : List Char) (nonempty : ds' ≠ []) :
    Trimmed (ds ++ ds') ↔ Trimmed ds' := by
  rw [← List.dropLast_concat_getLast nonempty, ← List.append_assoc, trimmed_concat_iff,
    trimmed_concat_iff]

/-- The last digit of a number is a zero only if the number is a multiple of ten. -/
theorem trimmed_iff (all : ds.all Char.isDigit = true) (nonempty : ds ≠ []) :
    Trimmed ds ↔ Nat.ofDigitChars 10 ds 0 % 10 ≠ 0 := by
  have last := List.all_eq_true.mp all _ (List.getLast_mem nonempty)
  rw [← List.dropLast_concat_getLast nonempty, trimmed_concat_iff, ofDigitChars_concat]
  generalize ds.getLast nonempty = d at last
  have bounds := toNat_of_isDigit last
  have zero : '0'.toNat = 48 := rfl
  rw [zero, ne_eq, ← Char.toNat_inj, zero]
  omega

/-- What digits are read as, if there is an integral digit and the fraction needs no trimming. -/
theorem ofDigits?_eq {whole fraction : List Char} (nonempty : whole ++ fraction ≠ [])
    (all : (whole ++ fraction).all Char.isDigit = true) (trimmed : Trimmed fraction)
    (bounded : fraction.length < scaleBound) :
    ofDigits? whole fraction =
      some ⟨Nat.ofDigitChars 10 (whole ++ fraction) 0, fraction.length⟩ := by
  rw [ofDigits?, trimFraction_of_trimmed trimmed, integer?_eq nonempty all]
  exact if_pos bounded

/-! ## Canonical numerals -/

/-- The fraction does not end with a zero, and is short enough. -/
structure Canonical (n : Numeral) : Prop where
  bounded : n.scale < scaleBound
  trimmed : n.scale ≠ 0 → n.mantissa.natAbs % 10 ≠ 0

/-- The numeral is made of decimal digits, or the opposite of one that is. -/
def Written (n : Numeral) : Prop :=
  ∃ (integral fraction : List Char) (value : Numeral), integral.all Char.isDigit = true ∧
    fraction.all Char.isDigit = true ∧ ofDigits? integral fraction = some value ∧
    (n = value ∨ n = value.negate)

theorem Canonical.negate {n : Numeral} (canonical : n.Canonical) : n.negate.Canonical :=
  ⟨canonical.bounded, by simpa [Numeral.negate] using canonical.trimmed⟩

theorem canonical_of_ofDigits? {integral fraction : List Char} {n : Numeral}
    (all : integral.all Char.isDigit = true) (all' : fraction.all Char.isDigit = true)
    (read : ofDigits? integral fraction = some n) : n.Canonical := by
  have digits := all_trimFraction all'
  have trimmed := trimmed_trimFraction fraction
  unfold ofDigits? at read
  dsimp only at read
  generalize trimFraction fraction = fraction at *
  have digits' : (integral ++ fraction).all Char.isDigit = true := by
    rw [List.all_append, all, digits, Bool.and_self]
  by_cases nonempty : integral ++ fraction = []
  · rw [nonempty] at read
    cases read
  · rw [integer?_eq nonempty digits'] at read
    dsimp only at read
    split at read
    · next bounded =>
        cases read
        refine ⟨bounded, fun longer => ?_⟩
        have longer' : fraction ≠ [] := fun none => longer (congrArg List.length none)
        rw [← trimmed_append_iff _ longer', trimmed_iff digits' nonempty] at trimmed
        exact trimmed
    · cases read

theorem Written.canonical {n : Numeral} (written : n.Written) : n.Canonical := by
  obtain ⟨integral, fraction, value, all, all', read, rfl | rfl⟩ := written
  · exact canonical_of_ofDigits? all all' read
  · exact (canonical_of_ofDigits? all all' read).negate

theorem eq_of_nonneg {n : Numeral} (nonneg : ¬n.mantissa < 0) :
    n = ⟨n.mantissa.natAbs, n.scale⟩ := by
  obtain ⟨mantissa, scale⟩ := n
  simp only [Numeral.mk.injEq, and_true] at nonneg ⊢
  omega

theorem eq_of_negative {n : Numeral} (negative : n.mantissa < 0) :
    n = negate ⟨n.mantissa.natAbs, n.scale⟩ := by
  obtain ⟨mantissa, scale⟩ := n
  simp only [negate, Numeral.mk.injEq, and_true] at negative ⊢
  omega

/-! ## Texts -/

/-- Digits with a point in front of the fraction, if there is one. -/
def pointed (whole fraction : List Char) : List Char :=
  if fraction = [] then whole else whole ++ '.' :: fraction

theorem pointed_starts {whole : List Char} (fraction : List Char) (nonempty : whole ≠ [])
    (all : whole.all Char.isDigit = true) :
    ∃ d ds, pointed whole fraction = d :: ds ∧ d.isDigit = true := by
  cases whole with
  | nil => exact absurd rfl nonempty
  | cons d ds =>
      rw [List.all_cons, Bool.and_eq_true] at all
      unfold pointed
      split
      · exact ⟨d, ds, rfl, all.1⟩
      · exact ⟨d, _, rfl, all.1⟩

theorem pointed_ne_nil {whole : List Char} (fraction : List Char) (nonempty : whole ≠ []) :
    pointed whole fraction ≠ [] := by
  unfold pointed
  split
  · exact nonempty
  · exact List.append_ne_nil_of_left_ne_nil nonempty _

def whole (n : Numeral) : List Char := n.digits.take (n.digits.length - n.scale)

def fraction (n : Numeral) : List Char := n.digits.drop (n.digits.length - n.scale)

variable (n : Numeral)

theorem whole_append_fraction : n.whole ++ n.fraction = n.digits := List.take_append_drop _ _

theorem length_fraction : n.fraction.length = n.scale := by
  have longer := n.scale_lt_length_digits
  rw [fraction, List.length_drop]
  omega

theorem whole_ne_nil : n.whole ≠ [] := by
  have longer := n.scale_lt_length_digits
  apply List.ne_nil_of_length_pos
  rw [whole, List.length_take]
  omega

theorem text_eq_pointed :
    n.text = (if n.mantissa < 0 then ['-'] else []) ++ pointed n.whole n.fraction := by
  have length := n.length_fraction
  unfold text pointed
  by_cases integral : n.scale = 0
  · have none : n.fraction = [] := List.eq_nil_of_length_eq_zero (by rw [length, integral])
    have all := n.whole_append_fraction
    rw [none, List.append_nil] at all
    rw [if_pos integral, none, if_pos rfl, all]
  · have nonempty : n.fraction ≠ [] := by
      intro none
      rw [none] at length
      exact integral length.symm
    rw [if_neg integral, if_neg nonempty, List.append_assoc]
    rfl

theorem all_digits : n.digits.all Char.isDigit = true := by
  apply List.all_eq_true.mpr
  intro d mem
  rcases List.mem_append.mp mem with mem | mem
  · obtain rfl := (List.mem_replicate.mp mem).2
    decide
  · exact Nat.isDigit_of_mem_toDigits (by decide) (by decide) mem

theorem all_whole : n.whole.all Char.isDigit = true := by
  have all := n.all_digits
  rw [← whole_append_fraction, List.all_append, Bool.and_eq_true] at all
  exact all.1

theorem all_fraction : n.fraction.all Char.isDigit = true := by
  have all := n.all_digits
  rw [← whole_append_fraction, List.all_append, Bool.and_eq_true] at all
  exact all.2

theorem ofDigitChars_digits : Nat.ofDigitChars 10 n.digits 0 = n.mantissa.natAbs := by
  rw [digits, Nat.ofDigitChars_append, Nat.ofDigitChars_replicate_zero, Nat.mul_zero,
    Nat.ofDigitChars_ten_toDigits]

variable {n}

/-- The digits of a canonical numeral are read back as the numeral without its sign. -/
theorem Canonical.ofDigits?_eq (canonical : n.Canonical) :
    ofDigits? n.whole n.fraction = some ⟨n.mantissa.natAbs, n.scale⟩ := by
  have digits := n.whole_append_fraction
  have length := n.length_fraction
  have nonempty : n.digits ≠ [] := by
    rw [← digits]
    exact List.append_ne_nil_of_left_ne_nil n.whole_ne_nil _
  have trimmed : Trimmed n.fraction := by
    by_cases none : n.fraction = []
    · rw [none]
      exact fun ds' same => List.append_ne_nil_of_right_ne_nil ds' (List.cons_ne_nil _ _) same.symm
    · rw [← trimmed_append_iff n.whole none, digits, trimmed_iff n.all_digits nonempty,
        ofDigitChars_digits]
      apply canonical.trimmed
      rw [← length]
      exact fun zero => none (List.eq_nil_of_length_eq_zero zero)
  have bounded : n.fraction.length < scaleBound := length ▸ canonical.bounded
  rw [Numeral.ofDigits?_eq (digits ▸ nonempty) (digits ▸ n.all_digits) trimmed bounded, digits,
    length, ofDigitChars_digits]

/-! ## Different texts -/

theorem takeWhile_pointed {whole : List Char} (fraction : List Char)
    (all : whole.all Char.isDigit = true) :
    (pointed whole fraction).takeWhile Char.isDigit = whole := by
  have digits : ∀ d ∈ whole, d.isDigit = true := List.all_eq_true.mp all
  unfold pointed
  split
  · have ends : (whole ++ []).takeWhile Char.isDigit = whole ++ [].takeWhile Char.isDigit :=
      List.takeWhile_append_of_pos digits
    simpa using ends
  · rw [List.takeWhile_append_of_pos digits, List.takeWhile_cons_of_neg (by decide),
      List.append_nil]

/-- The first character that is no digit is the point. -/
theorem pointed_inj {whole whole' fraction fraction' : List Char}
    (all : whole.all Char.isDigit = true) (all' : whole'.all Char.isDigit = true)
    (same : pointed whole fraction = pointed whole' fraction') :
    whole = whole' ∧ fraction = fraction' := by
  obtain rfl : whole = whole' := by
    rw [← takeWhile_pointed fraction all, same, takeWhile_pointed fraction' all']
  refine ⟨rfl, ?_⟩
  unfold pointed at same
  split at same
  · next none =>
      split at same
      · next none' => rw [none, none']
      · exact absurd same (by simp)
  · split at same
    · exact absurd same (by simp)
    · exact (List.cons.inj (List.append_cancel_left same)).2

theorem eq_of_parts {m n : Numeral} (negative : m.mantissa < 0 ↔ n.mantissa < 0)
    (whole : m.whole = n.whole) (fraction : m.fraction = n.fraction) : m = n := by
  have scale : m.scale = n.scale := by
    rw [← length_fraction, fraction, length_fraction]
  have magnitude : m.mantissa.natAbs = n.mantissa.natAbs := by
    rw [← ofDigitChars_digits, ← ofDigitChars_digits, ← whole_append_fraction,
      ← whole_append_fraction, whole, fraction]
  have mantissa : m.mantissa = n.mantissa := by omega
  cases m
  cases n
  simp_all

/-- No two numerals have one text. The minus sign is no digit, and the point is none. -/
theorem text_injective : Function.Injective text := by
  intro m n same
  rw [text_eq_pointed, text_eq_pointed] at same
  obtain ⟨d, ds, starts, digit⟩ := pointed_starts m.fraction m.whole_ne_nil m.all_whole
  obtain ⟨e, es, starts', digit'⟩ := pointed_starts n.fraction n.whole_ne_nil n.all_whole
  have parts (signs : m.mantissa < 0 ↔ n.mantissa < 0)
      (same : pointed m.whole m.fraction = pointed n.whole n.fraction) : m = n := by
    obtain ⟨whole, fraction⟩ := pointed_inj m.all_whole n.all_whole same
    exact eq_of_parts signs whole fraction
  have unsigned {c : Char} (isDigit : c.isDigit = true) : '-' ≠ c := by
    rintro rfl
    exact absurd isDigit (by decide)
  by_cases negative : m.mantissa < 0
  · by_cases negative' : n.mantissa < 0
    · rw [if_pos negative, if_pos negative'] at same
      exact parts (iff_of_true negative negative') (List.append_cancel_left same)
    · rw [if_pos negative, if_neg negative', starts'] at same
      exact absurd (List.cons.inj same).1 (unsigned digit')
  · by_cases negative' : n.mantissa < 0
    · rw [if_neg negative, if_pos negative', starts] at same
      exact absurd (List.cons.inj same).1.symm (unsigned digit)
    · rw [if_neg negative, if_neg negative'] at same
      exact parts (iff_of_false negative negative') same

theorem toString_inj {m n : Numeral} : toString m = toString n ↔ m = n := by
  refine ⟨fun same => text_injective (String.ofList_inj.mp same), ?_⟩
  rintro rfl
  rfl

end Numeral

end TermMachine
