import TermMachine.Cursor
import TermMachine.Heap.Unify
import TermMachine.Registers

/-!
# The machine

The machine executes instructions on a heap and a block of registers. A run ends in success, in the
failure of a unification, or in an error: instructions that make no sense in the state they meet,
or a limit that is used up. An error leaves the machine as it was when it was noticed, and a later
run may go on from there; after a failed unification every later run does nothing.

`step` executes one instruction and `run` a list of them. Both take the number of pairs that a
single unification may work off, since a unification of structures that contain themselves need not
end.
-/

namespace TermMachine

inductive Status where
  | running
  | succeeded
  | failed
deriving Repr, DecidableEq

def Status.text : Status → String
  | .running => "running"
  | .succeeded => "succeeded"
  | .failed => "failed"

/-- What can be used up. Without a number there is no limit. -/
structure Limits where
  heapCapacity : Option Nat
  /-- The number of instructions in the life of a machine. -/
  maxSteps : Option Nat
deriving Repr, DecidableEq

def Limits.unlimited : Limits := ⟨none, none⟩

/-- The errors of a machine. A unification that fails is none. -/
inductive MachineError where
  | register (e : RegisterError)
  | memory (e : MemoryError)
  | cursor (e : CursorError)
  | stepLimitExceeded (maxSteps : Nat)
deriving Repr, DecidableEq

def MachineError.message : MachineError → String
  | .register e => e.message
  | .memory e => e.message
  | .cursor e => e.message
  | .stepLimitExceeded maxSteps =>
      "exceeded the limit of " ++ toString maxSteps ++ " instructions"

structure Machine where
  status : Status
  cursor : Cursor
  registers : Registers
  heap : Heap
  steps : Nat
  maxSteps : Option Nat
deriving Repr, DecidableEq

/-- What an instruction, or a unification within it, leads to. -/
inductive Effect where
  | done (m : Machine)
  | failed (m : Machine)
  | error (e : MachineError) (m : Machine)
  /-- A unification has used up the work it was allowed. -/
  | unfinished (m : Machine)

/-- How a run ends. A run that ends well leaves a machine that has succeeded or failed. -/
inductive Outcome where
  | ok (m : Machine)
  | error (e : MachineError) (m : Machine)
  | unfinished (m : Machine)

namespace Machine

def new (registerCount : Nat) (limits : Limits) : Machine where
  status := .running
  cursor := .idle
  registers := .new registerCount
  heap := .empty limits.heapCapacity
  steps := 0
  maxSteps := limits.maxSteps

/-- No run is under way and the last one was not stopped by an error. -/
def isFinished (m : Machine) : Bool := m.status != .running

def hasFailed (m : Machine) : Bool := m.status == .failed

/-- Puts the start of a structure on top of the heap and the cursor in front of its first argument.
An error changes nothing. -/
def openStructure (m : Machine) (s : Symbol) : Except MachineError Machine :=
  match m.cursor.verifyIdle with
  | .error e => .error (.cursor e)
  | .ok () =>
      match m.heap.newStructure s with
      | .error e => .error (.memory e)
      | .ok heap => .ok { m with heap, cursor := .along .write ⟨m.heap.top + 2, s.arity⟩ }

def storeRegister (m : Machine) (x : Register) (a : Address) : Effect :=
  match m.registers.store x a with
  | .ok registers => .done { m with registers }
  | .error e => .error (.register e) m

/-- Unifies two terms in the heap. A failure leaves the cursor idle. -/
def unify (fuel : Nat) (m : Machine) (a b : Address) : Effect :=
  match m.heap.unify fuel a b with
  | .unified heap => .done { m with heap }
  | .clash heap => .failed { m with heap, cursor := .idle }
  | .error e heap => .error (.memory e) { m with heap }
  | .unfinished heap _ => .unfinished { m with heap }

def putStructure (m : Machine) (s : Symbol) (x : Register) : Effect :=
  match m.openStructure s with
  | .error e => .error e m
  | .ok m' => m'.storeRegister x m.heap.top

def setVariable (m : Machine) (x : Register) : Effect :=
  match m.cursor.writeNext m.heap Heap.newVariable with
  | (.error e, heap) => .error (.cursor e) { m with heap }
  | (.ok (a, cursor), heap) => { m with heap, cursor }.storeRegister x a

def setValue (m : Machine) (x : Register) : Effect :=
  match m.registers.load x with
  | .error e => .error (.register e) m
  | .ok a =>
      match m.cursor.writeNext m.heap (·.pushCopy a) with
      | (.error e, heap) => .error (.cursor e) { m with heap }
      | (.ok (_, cursor), heap) => .done { m with heap, cursor }

/-- Matches what `x` holds against a structure: a structure with the symbol is read, and a variable
is bound to a new structure, which is built. -/
def getStructure (m : Machine) (s : Symbol) (x : Register) : Effect :=
  match m.registers.load x with
  | .error e => .error (.register e) m
  | .ok a =>
      match m.heap.inspect a with
      | .error e => .error (.memory e) m
      | .ok (a, .unbound) =>
          match m.openStructure s with
          | .error e => .error e m
          | .ok m' =>
              match m'.heap.bind a m.heap.top with
              | .ok heap => .done { m' with heap }
              | .error e => .error (.memory e) m'
      | .ok (_, .compound t first) =>
          if t = s then
            match m.cursor.start .read ⟨first, t.arity⟩ with
            | .ok cursor => .done { m with cursor }
            | .error e => .error (.cursor e) m
          else .failed { m with cursor := .idle }

def unifyVariable (m : Machine) (x : Register) : Effect :=
  match m.cursor.mode with
  | .error e => .error (.cursor e) m
  | .ok .write => m.setVariable x
  | .ok .read =>
      match m.cursor.readNext with
      | .error e => .error (.cursor e) m
      | .ok (a, cursor) => { m with cursor }.storeRegister x a

def unifyValue (fuel : Nat) (m : Machine) (x : Register) : Effect :=
  match m.cursor.mode with
  | .error e => .error (.cursor e) m
  | .ok .write => m.setValue x
  | .ok .read =>
      match m.cursor.readNext with
      | .error e => .error (.cursor e) m
      | .ok (a, cursor) =>
          match m.registers.load x with
          | .error e => .error (.register e) { m with cursor }
          | .ok b => { m with cursor }.unify fuel b a

def step (fuel : Nat) (m : Machine) : Instruction → Effect
  | .putStructure s x => m.putStructure s x
  | .setVariable x => m.setVariable x
  | .setValue x => m.setValue x
  | .getStructure s x => m.getStructure s x
  | .unifyVariable x => m.unifyVariable x
  | .unifyValue x => m.unifyValue fuel x

/-- The limit on instructions, if the machine has reached it. -/
def reachedLimit? (m : Machine) : Option Nat := m.maxSteps.filter (· ≤ m.steps)

/-- Executes instructions one after the other. Behind the last one no structure may be left open. -/
def execute (fuel : Nat) (m : Machine) : List Instruction → Outcome
  | [] =>
      match m.cursor.verifyIdle with
      | .ok () => .ok { m with status := .succeeded }
      | .error e => .error (.cursor e) m
  | i :: is =>
      match m.reachedLimit? with
      | some maxSteps => .error (.stepLimitExceeded maxSteps) m
      | none =>
          match { m with steps := m.steps + 1 }.step fuel i with
          | .done m => m.execute fuel is
          | .failed m => .ok { m with status := .failed }
          | .error e m => .error e m
          | .unfinished m => .unfinished m

/-- Goes on with instructions, unless a unification has failed before. -/
def run (fuel : Nat) (m : Machine) (is : List Instruction) : Outcome :=
  if m.status = .failed then .ok m else { m with status := .running }.execute fuel is

def register (m : Machine) (x : Register) : Except MachineError (Option Address) :=
  match m.registers.get x with
  | .ok slot => .ok slot
  | .error e => .error (.register e)

def slotText (m : Machine) (slot : Option Address) : String :=
  match slot.bind (m.heap.cells[·]?) with
  | some cell => cell.text
  | none => "_"

def text (m : Machine) : String :=
  String.join
    ["Status: ", m.status.text, "\n",
     "H: ", toString m.heap.top, "\n",
     "Structure: ", m.cursor.text, "\n",
     "Registers:\n",
     String.join (m.registers.slots.toList.mapIdx fun x slot =>
       Register.text x ++ " = " ++ m.slotText slot ++ "\n"),
     "Heap:\n",
     m.heap.text]

end Machine

end TermMachine
