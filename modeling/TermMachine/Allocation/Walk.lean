import TermMachine.Code

/-!
# The walk that gives a term its registers

`Allocation.ofTerm` gives every application the register that was handed out for it. The walk does
the same with nothing but a table that it fills and a stack: it goes through all parts of the term,
every part before its arguments, and at an application takes from the stack the register that it is
for. Then it writes entries for the arguments behind the entries that there are, and puts the
registers of the applications among them onto the stack, so that the first of them is the next to be
taken. Nothing but the order keeps the stack in step with the term.
-/

namespace TermMachine

/-- What the walk has written down for a register. The number of arguments is known before their
registers are. -/
inductive Slot where
  | application (name : String) (arity : Nat) (args : List Register)
  | var (name : String)
  | constant
deriving Repr, DecidableEq

def Slot.ofEntry : Entry → Slot
  | .compound name args => .application name args.length args
  | .var name => .var name
  | .constant => .constant

/-- How far the walk has come. -/
structure Walk where
  slots : List Slot
  vars : List (String × Register)
  /-- The registers of the applications that the walk has still to go into, the next one first. -/
  pending : List Register
deriving Repr, DecidableEq

namespace Walk

def push (w : Walk) (slot : Slot) : Register × Walk :=
  (w.slots.length, { w with slots := w.slots ++ [slot] })

def ofVariable (w : Walk) (name : String) : Register × Walk :=
  match w.vars.lookup name with
  | some x => (x, w)
  | none =>
      let (x, w) := w.push (.var name)
      (x, { w with vars := w.vars ++ [(name, x)] })

/-- A register for an application. The registers of its arguments are not there yet. -/
def ofApplication (w : Walk) (name : String) (arity : Nat) :
    Except CompileError (Register × Walk) :=
  if arity < arityBound then .ok (w.push (.application name arity []))
  else .error (.invalidTerm name arity)

def ofArgument (w : Walk) : Term → Except CompileError (Register × Walk)
  | .var name => .ok (w.ofVariable name)
  | .atom name => w.ofApplication name 0
  | .number value => w.ofApplication (toString value) 0
  | .compound name args => w.ofApplication name args.length

/-- The register of an argument if the walk has to go into it. -/
def ahead : Term → Register → List Register
  | .compound _ _, x => [x]
  | .atom _, _ | .number _, _ | .var _, _ => []

/-- The registers of arguments, from left to right, and which of them the walk has to go into. -/
def ofArguments (w : Walk) :
    List Term → Except CompileError (List Register × List Register × Walk)
  | [] => .ok ([], [], w)
  | t :: ts =>
      match w.ofArgument t with
      | .error e => .error e
      | .ok (x, w) =>
          match w.ofArguments ts with
          | .error e => .error e
          | .ok (xs, inner, w) => .ok (x :: xs, ahead t x ++ inner, w)

def fill (w : Walk) (x : Register) (args : List Register) : Except CompileError Walk :=
  match w.slots[x]? with
  | some (.application name arity _) =>
      .ok { w with slots := w.slots.set x (.application name arity args) }
  | _ => .error (.allocation (.unresolvedRegister x))

/-- One step of the walk. Only an application takes a register from the stack; atoms, numbers and
variables have no arguments. -/
def visit (w : Walk) : Term → Except CompileError Walk
  | .compound _ args =>
      match w.pending with
      | [] => .error (.allocation (.unresolvedRegister 0))
      | x :: rest =>
          match w.ofArguments args with
          | .error e => .error e
          | .ok (xs, inner, w) => ({ w with pending := inner ++ rest } : Walk).fill x xs
  | .atom _ | .number _ | .var _ => .ok w

def ofRoot (w : Walk) : Term → Except CompileError (Register × Walk)
  | .atom _ | .number _ => .ok (w.push .constant)
  | .var name => .ok (w.ofVariable name)
  | .compound name args => w.ofApplication name args.length

def ofTerm (t : Term) : Except CompileError Walk :=
  match ofRoot ⟨[], [], []⟩ t with
  | .error e => .error e
  | .ok (root, w) => t.preorder.foldlM visit { w with pending := [root] }

end Walk

end TermMachine
