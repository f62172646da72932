import TermMachine.Numeral
import TermMachine.Text.CharacterClass

/-!
# Terms

A term is an atom, a number, a variable, or a name applied to a list of terms. The type of names is
a parameter: a term read from a source has names that know where they stand (`SourceTerm`), and a
term that is compiled or answered has plain names (`Term`). Forgetting the places is `TermOf.map`,
so two source terms mean the same exactly when their plain forms are equal.
-/

namespace TermMachine

/-! ## Names and where they stand

A source text is addressed by the offsets of its characters, counted from zero. A name that was read
from a source remembers the stretch it was read from, for messages about it; the stretch never
decides what the name means. -/

/-- The characters of a source from `start` up to and without `stop`. -/
structure Span where
  start : Nat
  stop : Nat
deriving Repr, DecidableEq, Inhabited

namespace Span

def point (offset : Nat) : Span := ⟨offset, offset⟩

def shift (n : Nat) (s : Span) : Span := ⟨s.start + n, s.stop + n⟩

end Span

structure Name where
  text : String
  span : Span
deriving Repr, DecidableEq

namespace Name

def unplaced (text : String) : Name := ⟨text, ⟨0, 0⟩⟩

end Name

/-! ## Terms -/

/-- A first-order term with names of type `ν`. An application may have no arguments at all, which is
not the atom of its name. -/
inductive TermOf (ν : Type) where
  | atom (name : ν)
  | number (value : Numeral)
  | var (name : ν)
  | compound (name : ν) (args : List (TermOf ν))
deriving Repr, Inhabited

abbrev Term := TermOf String

abbrev SourceTerm := TermOf Name

namespace TermOf

variable {ν μ : Type}

/-- Induction on terms, with the hypothesis for every argument of an application. -/
@[elab_as_elim]
theorem induction {motive : TermOf ν → Prop}
    (atom : ∀ name, motive (.atom name))
    (number : ∀ value, motive (.number value))
    (var : ∀ name, motive (.var name))
    (compound : ∀ name args, (∀ t ∈ args, motive t) → motive (.compound name args)) :
    ∀ t, motive t
  | .atom name => atom name
  | .number value => number value
  | .var name => var name
  | .compound name args => compound name args fun t ht =>
      have : sizeOf t < sizeOf args := List.sizeOf_lt_of_mem ht
      induction atom number var compound t

mutual

def map (f : ν → μ) : TermOf ν → TermOf μ
  | .atom name => .atom (f name)
  | .number value => .number value
  | .var name => .var (f name)
  | .compound name args => .compound (f name) (mapAll f args)

def mapAll (f : ν → μ) : List (TermOf ν) → List (TermOf μ)
  | [] => []
  | t :: ts => t.map f :: mapAll f ts

end

theorem mapAll_eq_map (f : ν → μ) (ts : List (TermOf ν)) : mapAll f ts = ts.map (map f) := by
  induction ts with
  | nil => rfl
  | cons t ts ih => simp [mapAll, ih]

mutual

/-- The names of the variables, in the order of the text, one for every occurrence. -/
def occurrences : TermOf ν → List ν
  | .var name => [name]
  | .compound _ args => occurrencesAll args
  | .atom _ | .number _ => []

def occurrencesAll : List (TermOf ν) → List ν
  | [] => []
  | t :: ts => t.occurrences ++ occurrencesAll ts

end

/-- The names of the variables, each once, in the order of their first occurrences. -/
def vars [BEq ν] (t : TermOf ν) : List ν := t.occurrences.eraseDups

def args : TermOf ν → List (TermOf ν)
  | .compound _ args => args
  | .atom _ | .number _ | .var _ => []

mutual

/-- The term and all its subterms, every term before its arguments. -/
def preorder : TermOf ν → List (TermOf ν)
  | .compound name args => .compound name args :: preorderAll args
  | t => [t]

def preorderAll : List (TermOf ν) → List (TermOf ν)
  | [] => []
  | t :: ts => t.preorder ++ preorderAll ts

end

theorem preorderAll_eq_flatMap (ts : List (TermOf ν)) :
    preorderAll ts = ts.flatMap preorder := by
  induction ts with
  | nil => rfl
  | cons t ts ih => rw [preorderAll, ih, List.flatMap_cons]

mutual

/-- The term and all its subterms, every term after its arguments. -/
def postorder : TermOf ν → List (TermOf ν)
  | .compound name args => postorderAll args ++ [.compound name args]
  | t => [t]

def postorderAll : List (TermOf ν) → List (TermOf ν)
  | [] => []
  | t :: ts => t.postorder ++ postorderAll ts

end

mutual

def decEq [DecidableEq ν] : (s t : TermOf ν) → Decidable (s = t)
  | .atom m, .atom n => if h : m = n then .isTrue (by rw [h]) else .isFalse (by simp [h])
  | .number m, .number n => if h : m = n then .isTrue (by rw [h]) else .isFalse (by simp [h])
  | .var m, .var n => if h : m = n then .isTrue (by rw [h]) else .isFalse (by simp [h])
  | .compound m ss, .compound n ts =>
      if h : m = n then
        match decEqAll ss ts with
        | .isTrue hs => .isTrue (by rw [h, hs])
        | .isFalse hs => .isFalse (by simp [hs])
      else .isFalse (by simp [h])
  | .atom _, .number _ | .atom _, .var _ | .atom _, .compound _ _ => .isFalse (by simp)
  | .number _, .atom _ | .number _, .var _ | .number _, .compound _ _ => .isFalse (by simp)
  | .var _, .atom _ | .var _, .number _ | .var _, .compound _ _ => .isFalse (by simp)
  | .compound _ _, .atom _ | .compound _ _, .number _ | .compound _ _, .var _ =>
      .isFalse (by simp)

def decEqAll [DecidableEq ν] : (ss ts : List (TermOf ν)) → Decidable (ss = ts)
  | [], [] => .isTrue rfl
  | [], _ :: _ | _ :: _, [] => .isFalse (by simp)
  | s :: ss, t :: ts =>
      match decEq s t with
      | .isTrue h =>
          match decEqAll ss ts with
          | .isTrue hs => .isTrue (by rw [h, hs])
          | .isFalse hs => .isFalse (by simp [hs])
      | .isFalse h => .isFalse (by simp [h])

end

instance [DecidableEq ν] : DecidableEq (TermOf ν) := decEq

end TermOf

namespace SourceTerm

def plain (t : SourceTerm) : Term := t.map Name.text

end SourceTerm

/-! ## Names with a fixed meaning -/

def emptyListName : String := "[]"

def listCellName : String := "."

/-- The name that curly brackets apply to the term between them. -/
def curlyName : String := "\x7b\x7d"

def Term.cons (head tail : Term) : Term := .compound listCellName [head, tail]

/-! ## Writing names

A name is written bare if a reader would take the bare text for that name: a word that starts with a
lowercase letter, a run of symbol characters, or one of a few names that stand alone. Every other
name is written between single quotes, where a quote, a backslash, a line feed and a tab are escaped
and every other character stands for itself. -/

namespace Text

def symbolChars : List Char :=
  ['+', '-', '*', '/', '\\', '^', '<', '>', '=', '~', ':', '.', '?', '@', '#', '&', '$']

def isSymbolChar (c : Char) : Bool := symbolChars.contains c

def isWordChar (c : Char) : Bool := isAlphanumeric c || c == '_'

/-- The names that are written bare although they are neither words nor symbolic. -/
def soloNames : List (List Char) := [['[', ']'], ['\x7b', '\x7d'], ['!'], [';']]

/-- The bare text would not be read back as this name. The full stop is symbolic, but alone it ends
a clause. -/
def needsQuotes (name : List Char) : Bool :=
  match name with
  | [] => true
  | c :: cs =>
      if isLowercase c then !cs.all isWordChar
      else name == ['.'] || !(soloNames.contains name || name.all isSymbolChar)

def escapeChar (c : Char) : List Char :=
  if c = '\'' then ['\\', '\'']
  else if c = '\\' then ['\\', '\\']
  else if c = '\n' then ['\\', 'n']
  else if c = '\t' then ['\\', 't']
  else [c]

def nameText (name : List Char) : List Char :=
  if needsQuotes name then '\'' :: name.flatMap escapeChar ++ ['\''] else name

theorem nameText_of_needsQuotes {name : List Char} (h : needsQuotes name = true) :
    nameText name = '\'' :: name.flatMap escapeChar ++ ['\''] := by
  simp [nameText, h]

theorem nameText_of_bare {name : List Char} (h : needsQuotes name = false) :
    nameText name = name := by
  simp [nameText, h]

end Text

/-! ## The canonical text of a term

A term is written without operators, lists or brackets of any other kind: an application is its
name, directly followed by its arguments in round brackets, separated by a comma and a space.
Variables are written as they are. -/

namespace TermOf

mutual

def text : Term → List Char
  | .atom name => Text.nameText name.toList
  | .number value => value.text
  | .var name => name.toList
  | .compound name args => Text.nameText name.toList ++ '(' :: argumentsText args ++ [')']

def argumentsText : List Term → List Char
  | [] => []
  | t :: ts => text t ++ moreArgumentsText ts

def moreArgumentsText : List Term → List Char
  | [] => []
  | t :: ts => ',' :: ' ' :: text t ++ moreArgumentsText ts

end

end TermOf

def Term.render (t : Term) : String := String.ofList (TermOf.text t)

end TermMachine
