import TermMachine.Proofs.Numeral
import Mathlib.Algebra.Order.Ring.Rat
import Mathlib.Data.Rat.Cast.CharZero
import Mathlib.Tactic.FieldSimp
import Mathlib.Tactic.Positivity
import Mathlib.Tactic.Ring

/-! # The values of numerals

A numeral stands for a rational number, and so do digits with a sign in front of them and a point
among them. The numeral that is read from digits stands for the number that the digits are written
for. Its fraction does not end with a zero, so no other numeral that is read from digits stands for
that number.

`Decimal.numerals_canonical`: equal numbers, equal numerals and equal texts are one and the same,
and a numeral is read back from its text.
-/

namespace TermMachine

namespace Numeral

def value (n : Numeral) : ℚ := n.mantissa / 10 ^ n.scale

theorem value_negate (n : Numeral) : n.negate.value = -n.value := by
  simp only [value, negate, Int.cast_neg, neg_div]

/-- With a larger scale the mantissa would be a multiple of ten. -/
theorem Canonical.scale_le {m n : Numeral} (canonical : n.Canonical)
    (same : m.value = n.value) : n.scale ≤ m.scale := by
  apply Nat.le_of_not_lt
  intro less
  obtain ⟨k, longer⟩ := Nat.exists_eq_add_of_lt less
  have tens : m.mantissa * 10 ^ (k + 1) = n.mantissa := by
    rw [value, value, longer, Nat.add_assoc, pow_add,
      div_eq_div_iff (by positivity) (by positivity)] at same
    have cancelled : (m.mantissa * 10 ^ (k + 1) : ℚ) = n.mantissa := by
      apply mul_left_cancel₀ (pow_ne_zero m.scale (by decide : (10 : ℚ) ≠ 0))
      calc (10 : ℚ) ^ m.scale * (m.mantissa * 10 ^ (k + 1))
          = m.mantissa * (10 ^ m.scale * 10 ^ (k + 1)) := by ring
        _ = 10 ^ m.scale * n.mantissa := by rw [same, mul_comm]
    exact_mod_cast cancelled
  apply canonical.trimmed (Nat.ne_of_gt (Nat.zero_lt_of_lt less))
  rw [pow_succ, ← mul_assoc] at tens
  omega

theorem Canonical.value_inj {m n : Numeral} (canonical : m.Canonical) (canonical' : n.Canonical) :
    m.value = n.value ↔ m = n := by
  constructor
  · intro same
    have scale : m.scale = n.scale :=
      Nat.le_antisymm (canonical.scale_le same.symm) (canonical'.scale_le same)
    have mantissa : m.mantissa = n.mantissa := by
      rw [value, value, scale, div_left_inj' (by positivity)] at same
      exact_mod_cast same
    cases m
    cases n
    simp_all
  · rintro rfl
    rfl

/-! ## Digits -/

theorem exists_zeros (ds : List Char) : ∃ k, ds = trimFraction ds ++ List.replicate k '0' := by
  refine ⟨(ds.reverse.takeWhile (· == '0')).length, ?_⟩
  have zeros : ds.reverse.takeWhile (· == '0') =
      List.replicate (ds.reverse.takeWhile (· == '0')).length '0' := by
    apply List.eq_replicate_of_mem
    intro d mem
    exact beq_iff_eq.mp (List.all_eq_true.mp List.all_takeWhile d mem)
  rw [trimFraction, ← List.reverse_replicate, ← zeros, ← List.reverse_append,
    List.takeWhile_append_dropWhile, List.reverse_reverse]

/-- Zeros at the end of a fraction do not count. -/
theorem fraction_trimFraction (ds : List Char) :
    (Nat.ofDigitChars 10 (trimFraction ds) 0 : ℚ) / 10 ^ (trimFraction ds).length =
      Nat.ofDigitChars 10 ds 0 / 10 ^ ds.length := by
  obtain ⟨k, zeros⟩ := exists_zeros ds
  generalize trimFraction ds = trimmed at zeros
  subst zeros
  rw [Nat.ofDigitChars_append, Nat.ofDigitChars_replicate_zero, List.length_append,
    List.length_replicate, pow_add]
  push_cast
  field_simp

/-- Digits in front of a point and behind it, read as one number and scaled. -/
theorem ofDigitChars_append_div (whole fraction : List Char) :
    (Nat.ofDigitChars 10 (whole ++ fraction) 0 : ℚ) / 10 ^ fraction.length =
      Nat.ofDigitChars 10 whole 0 + Nat.ofDigitChars 10 fraction 0 / 10 ^ fraction.length := by
  rw [Nat.ofDigitChars_append, Nat.ofDigitChars_eq_ofDigitChars_zero]
  push_cast
  field_simp

theorem ofDigits?_trimFraction (whole fraction : List Char) :
    ofDigits? whole (trimFraction fraction) = ofDigits? whole fraction := by
  rw [ofDigits?, trimFraction_of_trimmed (trimmed_trimFraction fraction), ofDigits?]

end Numeral

/-- A number in writing: a sign, the digits in front of the point, and the digits behind it if there
is a point. -/
structure Decimal where
  negative : Bool
  integral : List Char
  fraction? : Option (List Char)

namespace Decimal

open Numeral

def fraction (d : Decimal) : List Char := d.fraction?.getD []

/-- There are digits only, one in front of the point at least, and not too many behind it once the
zeros at the end are dropped. -/
structure WellFormed (d : Decimal) : Prop where
  nonempty : d.integral ≠ []
  integral : d.integral.all Char.isDigit = true
  fraction : d.fraction.all Char.isDigit = true
  bounded : (trimFraction d.fraction).length < scaleBound

def value (d : Decimal) : ℚ :=
  let magnitude : ℚ := Nat.ofDigitChars 10 d.integral 0 +
    Nat.ofDigitChars 10 d.fraction 0 / 10 ^ d.fraction.length
  if d.negative then -magnitude else magnitude

/-- The numeral that is read from the digits, negated if there is a minus sign. -/
def numeral? (d : Decimal) : Option Numeral :=
  (ofDigits? d.integral d.fraction).map fun n => if d.negative then n.negate else n

def split (negative : Bool) (cs : List Char) : Decimal where
  negative := negative
  integral := cs.takeWhile (· != '.')
  fraction? := (cs.dropWhile (· != '.')).tail?

/-- A text with a leading minus sign taken for the sign, and the rest split at the first point. -/
def ofText : List Char → Decimal
  | '-' :: cs => split true cs
  | cs => split false cs

variable {d d' : Decimal}

/-- Every number in writing is read, as a canonical numeral of its value. -/
theorem WellFormed.exists_numeral (wellFormed : d.WellFormed) :
    ∃ n, d.numeral? = some n ∧ n.Canonical ∧ n.value = d.value := by
  have digits : (d.integral ++ trimFraction d.fraction).all Char.isDigit = true := by
    rw [List.all_append, wellFormed.integral, all_trimFraction wellFormed.fraction, Bool.and_self]
  have read := ofDigits?_eq (List.append_ne_nil_of_left_ne_nil wellFormed.nonempty _) digits
    (trimmed_trimFraction d.fraction) wellFormed.bounded
  rw [ofDigits?_trimFraction] at read
  have canonical := canonical_of_ofDigits? wellFormed.integral wellFormed.fraction read
  generalize made : (⟨Nat.ofDigitChars 10 (d.integral ++ trimFraction d.fraction) 0,
    (trimFraction d.fraction).length⟩ : Numeral) = n at read canonical
  have magnitude : n.value = Nat.ofDigitChars 10 d.integral 0 +
      Nat.ofDigitChars 10 d.fraction 0 / 10 ^ d.fraction.length := by
    rw [← made, Numeral.value, Int.cast_natCast, ofDigitChars_append_div, fraction_trimFraction]
  unfold numeral? value
  rw [read, Option.map_some]
  cases d.negative with
  | false => exact ⟨n, rfl, canonical, magnitude⟩
  | true => exact ⟨n.negate, rfl, canonical.negate, by rw [value_negate, magnitude]; rfl⟩

/-- The first point is the one in front of the fraction. -/
theorem split_pointed (negative : Bool) {whole : List Char} (ds : List Char)
    (all : whole.all Char.isDigit = true) :
    split negative (pointed whole ds) =
      ⟨negative, whole, if ds = [] then none else some ds⟩ := by
  have digits : ∀ d ∈ whole, (d != '.') = true := by
    intro d mem
    apply bne_iff_ne.mpr
    rintro rfl
    exact absurd (List.all_eq_true.mp all '.' mem) (by decide)
  unfold split pointed
  split
  · rw [← List.append_nil whole, List.takeWhile_append_of_pos digits,
      List.dropWhile_append_of_pos digits, List.takeWhile_nil, List.append_nil]
    rfl
  · rw [List.takeWhile_append_of_pos digits, List.dropWhile_append_of_pos digits,
      List.takeWhile_cons_of_neg (by decide), List.dropWhile_cons_of_neg (by decide),
      List.append_nil]
    rfl

theorem ofText_text (n : Numeral) :
    ofText n.text = ⟨decide (n.mantissa < 0), n.whole,
      if n.fraction = [] then none else some n.fraction⟩ := by
  rw [text_eq_pointed]
  by_cases negative : n.mantissa < 0
  · rw [if_pos negative, decide_eq_true negative]
    exact split_pointed true n.fraction n.all_whole
  · obtain ⟨d, ds, starts, digit⟩ := pointed_starts n.fraction n.whole_ne_nil n.all_whole
    rw [if_neg negative, decide_eq_false negative, ← split_pointed false n.fraction n.all_whole,
      List.nil_append]
    unfold ofText
    split
    · next cs minus =>
        rw [starts] at minus
        cases minus
        cases digit
    · rfl

/-- A canonical numeral is read back from its text. -/
theorem numeral?_ofText {n : Numeral} (canonical : n.Canonical) :
    (ofText n.text).numeral? = some n := by
  have behind : (if n.fraction = [] then none else some n.fraction).getD [] = n.fraction := by
    split
    · next none => exact none.symm
    · rfl
  rw [ofText_text, numeral?, Decimal.fraction, behind, canonical.ofDigits?_eq, Option.map_some]
  by_cases negative : n.mantissa < 0
  · rw [decide_eq_true negative, if_pos rfl, ← eq_of_negative negative]
  · rw [decide_eq_false negative, if_neg Bool.false_ne_true, ← eq_of_nonneg negative]

/-- Every number in writing is read as a numeral of its value. Two of these are equal exactly if the
numbers are, and exactly if they are written alike, and each is read back from its text. -/
theorem numerals_canonical (wellFormed : d.WellFormed) (wellFormed' : d'.WellFormed) :
    ∃ n n' : Numeral, d.numeral? = some n ∧ d'.numeral? = some n' ∧ n.value = d.value ∧
      (n = n' ↔ d.value = d'.value) ∧ (n = n' ↔ toString n = toString n') ∧
      (ofText (toString n).toList).numeral? = some n := by
  obtain ⟨n, read, canonical, value⟩ := wellFormed.exists_numeral
  obtain ⟨n', read', canonical', value'⟩ := wellFormed'.exists_numeral
  refine ⟨n, n', read, read', value, ?_, toString_inj.symm, ?_⟩
  · rw [← value, ← value', canonical.value_inj canonical']
  · show (ofText (String.ofList n.text).toList).numeral? = some n
    rw [String.toList_ofList, numeral?_ofText canonical]

/-- The two are `-007.250` and `-7.25`. -/
theorem numerals_canonical_padded :
    let d : Decimal := ⟨true, ['0', '0', '7'], some ['2', '5', '0']⟩
    let d' : Decimal := ⟨true, ['7'], some ['2', '5']⟩
    d.WellFormed ∧ d'.WellFormed ∧ ∃ n, d.numeral? = some n ∧ d'.numeral? = some n ∧
      n.value = d.value ∧ (ofText (toString n).toList).numeral? = some n := by
  intro d d'
  have wellFormed : d.WellFormed := ⟨by decide, by decide, by decide, by decide⟩
  have wellFormed' : d'.WellFormed := ⟨by decide, by decide, by decide, by decide⟩
  obtain ⟨n, n', read, read', value, _, _, back⟩ := numerals_canonical wellFormed wellFormed'
  have same : n = n' := Option.some.inj (read.symm.trans ((by decide :
    d.numeral? = d'.numeral?).trans read'))
  exact ⟨wellFormed, wellFormed', n, read, by rw [same, read'], value, back⟩

end Decimal

end TermMachine
