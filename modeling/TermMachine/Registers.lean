import TermMachine.Heap

/-!
# Registers and instructions

A block of registers, numbered from zero. A register holds the address of a term, or nothing until
it is first written.

Three instructions build a term in the heap: a structure is started, and each of its arguments is a
new variable or a term that a register holds. Three more match a term in a register against a
pattern in the same shape, building the parts that the term leaves open.
-/

namespace TermMachine

abbrev Register := Nat

namespace Register

def text (x : Register) : String := "X" ++ toString x

end Register

inductive RegisterError where
  | indexOutOfRange (index : Register) (count : Nat)
  | noValue (index : Register)
deriving Repr, DecidableEq

def RegisterError.message : RegisterError → String
  | .indexOutOfRange index count =>
      "register " ++ index.text ++ " does not exist, there are " ++ toString count ++ " registers"
  | .noValue index => "register " ++ index.text ++ " has no value"

structure Registers where
  slots : Array (Option Address)
deriving Repr, DecidableEq

namespace Registers

def new (count : Nat) : Registers := ⟨Array.replicate count none⟩

def count (r : Registers) : Nat := r.slots.size

/-- What a register holds, if it has been written. -/
def get (r : Registers) (x : Register) : Except RegisterError (Option Address) :=
  match r.slots[x]? with
  | some slot => .ok slot
  | none => .error (.indexOutOfRange x r.count)

def load (r : Registers) (x : Register) : Except RegisterError Address :=
  match r.get x with
  | .ok (some a) => .ok a
  | .ok none => .error (.noValue x)
  | .error e => .error e

def store (r : Registers) (x : Register) (a : Address) : Except RegisterError Registers :=
  if x < r.count then .ok ⟨r.slots.setIfInBounds x (some a)⟩
  else .error (.indexOutOfRange x r.count)

@[simp] theorem count_new (n : Nat) : (new n).count = n := by simp [new, count]

end Registers

inductive Instruction where
  /-- Starts to build a structure, for register `x`. -/
  | putStructure (s : Symbol) (x : Register)
  /-- The next argument is a new variable, which register `x` is to hold. -/
  | setVariable (x : Register)
  /-- The next argument is what register `x` holds. -/
  | setValue (x : Register)
  /-- Register `x` has to hold a structure with this symbol, or a variable that can become one. -/
  | getStructure (s : Symbol) (x : Register)
  /-- Register `x` is to hold the next argument, whatever it is. -/
  | unifyVariable (x : Register)
  /-- The next argument has to be unifiable with what register `x` holds. -/
  | unifyValue (x : Register)
deriving Repr, DecidableEq

namespace Instruction

def text : Instruction → String
  | .putStructure s x => "put_structure " ++ s.text ++ " " ++ x.text
  | .setVariable x => "set_variable " ++ x.text
  | .setValue x => "set_value " ++ x.text
  | .getStructure s x => "get_structure " ++ s.text ++ " " ++ x.text
  | .unifyVariable x => "unify_variable " ++ x.text
  | .unifyValue x => "unify_value " ++ x.text

end Instruction

end TermMachine
