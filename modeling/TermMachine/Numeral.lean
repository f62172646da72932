/-!
# Decimal numerals

A numeral is an exact decimal number `mantissa * 10 ^ (-scale)`. It is read from its integral digits
and its fractional digits, and the zeros at the end of the fraction are dropped on reading, so that
equal numbers are equal numerals: `1.0`, `1.00` and `1` are one value with one text.

Integers are read by a library for integers of any size, whose code is not part of this project. It
is assumed of it that it takes what `integer?` takes: one sign at most, then a decimal digit, then
digits and underscores, which do not count. Its integers are assumed to be exact and to have no
bound, and the digits it writes to have no zeros in front.
-/

namespace TermMachine

/-- The exact decimal number `mantissa * 10 ^ (-scale)`. -/
structure Numeral where
  mantissa : Int
  scale : Nat
deriving Repr, DecidableEq

namespace Numeral

/-- Reads digits grouped by underscores. A group mark may stand anywhere but in front, so the text
is not empty and starts with a digit. -/
def magnitude? : List Char → Option Nat
  | [] => none
  | c :: cs =>
      if c.isDigit && cs.all (fun d => d.isDigit || d == '_') then
        some (Nat.ofDigitChars 10 ((c :: cs).filter (· != '_')) 0)
      else none

/-- Reads an integer: at most one sign, then a magnitude. -/
def integer? : List Char → Option Int
  | '-' :: cs => (magnitude? cs).map fun n => -(n : Int)
  | '+' :: cs => (magnitude? cs).map fun n => (n : Int)
  | cs => (magnitude? cs).map fun n => (n : Int)

def trimFraction (digits : List Char) : List Char :=
  (digits.reverse.dropWhile (· == '0')).reverse

/-- The scale is a count of 32 bits. -/
def scaleBound : Nat := UInt32.size

/-- The numeral with the given integral and fractional digits. The two are read as one mantissa, so
a sign and group marks may stand in them as in any integer; every character left in the fraction
adds one to the scale. -/
def ofDigits? (integral fraction : List Char) : Option Numeral :=
  let fraction := trimFraction fraction
  match integer? (integral ++ fraction) with
  | some mantissa =>
      if fraction.length < scaleBound then some ⟨mantissa, fraction.length⟩ else none
  | none => none

def negate (n : Numeral) : Numeral := { n with mantissa := -n.mantissa }

@[simp] theorem negate_negate (n : Numeral) : n.negate.negate = n := by
  simp [negate]

/-- The digits of the mantissa without its sign, with enough zeros in front that at least one digit
stands before the point. -/
def digits (n : Numeral) : List Char :=
  let ds := Nat.toDigits 10 n.mantissa.natAbs
  List.replicate (n.scale + 1 - ds.length) '0' ++ ds

theorem scale_lt_length_digits (n : Numeral) : n.scale < n.digits.length := by
  simp only [digits, List.length_append, List.length_replicate]
  omega

/-- The one way a numeral is written: a minus sign if it is negative, the digits, and a point in
front of the last `scale` of them unless there are none. -/
def text (n : Numeral) : List Char :=
  let sign := if n.mantissa < 0 then ['-'] else []
  let whole := n.digits.length - n.scale
  if n.scale = 0 then sign ++ n.digits
  else sign ++ n.digits.take whole ++ '.' :: n.digits.drop whole

instance : ToString Numeral := ⟨fun n => String.ofList n.text⟩

end Numeral

end TermMachine
