import TermMachine.Collect
import TermMachine.Registers
import TermMachine.Term

/-!
# Registers for the parts of a term

Before a term can be compiled, each of its parts is given a register. Register 0 is for the whole
term. The others are handed out in a walk over the applications of the term, every application
before those inside it: its arguments are numbered first, one after the other, and only then the
walk goes into them. A variable keeps the register of its first occurrence. An atom or a number
among the arguments is an application without arguments; as the whole term it is a constant, which
needs no code.

`Node` is the term with its registers in place, and `Allocation.entries` is the same as a table, in
the order of the registers.
-/

namespace TermMachine

/-- A term in which every part has its register. -/
inductive Node where
  | constant (register : Register)
  | var (register : Register) (name : String)
  | compound (register : Register) (name : String) (args : List Node)
deriving Repr, Inhabited

namespace Node

def register : Node → Register
  | .constant x => x
  | .var x _ => x
  | .compound x _ _ => x

mutual

def preorder : Node → List Node
  | .compound x name args => .compound x name args :: preorderAll args
  | node => [node]

def preorderAll : List Node → List Node
  | [] => []
  | node :: nodes => node.preorder ++ preorderAll nodes

end

end Node

inductive Entry where
  | compound (name : String) (args : List Register)
  | var (name : String)
  | constant
deriving Repr, DecidableEq

namespace Entry

def ofNode : Node → Entry
  | .constant _ => .constant
  | .var _ name => .var name
  | .compound _ name args => .compound name (args.map Node.register)

def args : Entry → List Register
  | .compound _ args => args
  | .var _ | .constant => []

def text : Entry → String
  | .compound name [] => name
  | .compound name args => name ++ "(" ++ ", ".intercalate (args.map Register.text) ++ ")"
  | .var name => name
  | .constant => "constant"

end Entry

/-- Registers to hand out: the next one, and those that variables have. -/
structure Supply where
  next : Register
  vars : List (String × Register)
deriving Repr, DecidableEq

namespace Supply

/-- All registers but register 0, which is for the whole term. -/
def start : Supply := ⟨1, []⟩

def fresh (s : Supply) : Register × Supply := (s.next, { s with next := s.next + 1 })

def ofVariable (s : Supply) (name : String) : Register × Supply :=
  match s.vars.lookup name with
  | some x => (x, s)
  | none => (s.next, ⟨s.next + 1, s.vars ++ [(name, s.next)]⟩)

def ofArgument (s : Supply) : Term → Register × Supply
  | .var name => s.ofVariable name
  | .atom _ | .number _ | .compound _ _ => s.fresh

def ofArguments (s : Supply) : List Term → List Register × Supply
  | [] => ([], s)
  | t :: ts =>
      let (x, s) := s.ofArgument t
      let (xs, s) := s.ofArguments ts
      (x :: xs, s)

end Supply

namespace Node

mutual

def ofTerm : Term → Register → Supply → Node × Supply
  | .atom name, x, s => (.compound x name [], s)
  | .number value, x, s => (.compound x (toString value) [], s)
  | .var name, x, s => (.var x name, s)
  | .compound name args, x, s =>
      let (xs, s) := s.ofArguments args
      let (nodes, s) := ofTerms args xs s
      (.compound x name nodes, s)

def ofTerms : List Term → List Register → Supply → List Node × Supply
  | t :: ts, x :: xs, s =>
      let (node, s) := ofTerm t x s
      let (nodes, s) := ofTerms ts xs s
      (node :: nodes, s)
  | _, _, s => ([], s)

end

end Node

inductive AllocationError where
  | unresolvedRegister (x : Register)
  | unallocatedVariable (name : String)
deriving Repr, DecidableEq

def AllocationError.message : AllocationError → String
  | .unresolvedRegister x => "no register holds " ++ x.text
  | .unallocatedVariable name =>
      "no register has been allocated for the variable " ++ name

/-- What the register of an argument is for, by the table of all registers. There is no code for a
constant that is an argument. -/
def Entry.ofArgument (entries : List Entry) (x : Register) : Except AllocationError Entry :=
  match entries[x]? with
  | none | some .constant => .error (.unresolvedRegister x)
  | some entry => .ok entry

/-- The number of arguments of a structure is a count of 32 bits. -/
def arityBound : Nat := UInt32.size

/-- The first application with more arguments than a structure can hold. Applications are looked at
when they are given registers: first the whole term, and then, for every application, those among
its arguments. -/
def Term.tooWide? (t : Term) : Option (String × Nat) :=
  (t :: t.preorder.flatMap TermOf.args).findSome? fun
    | .compound name args => if args.length < arityBound then none else some (name, args.length)
    | .atom _ | .number _ | .var _ => none

/-- A term with its registers: how many there are, and which of them are for variables. -/
structure Allocation where
  root : Node
  registerCount : Nat
  vars : List (String × Register)
deriving Repr

namespace Allocation

def ofTerm : Term → Allocation
  | .atom _ | .number _ => ⟨.constant 0, 1, []⟩
  | .var name => ⟨.var 0 name, 1, [(name, 0)]⟩
  | .compound name args =>
      let (root, s) := Node.ofTerm (.compound name args) 0 .start
      ⟨root, s.next, s.vars⟩

/-- The node of every register, in the order of the registers. -/
def nodes (a : Allocation) : List Node :=
  let all := a.root.preorder
  (List.range a.registerCount).filterMap fun x => all.find? fun node => node.register == x

def entries (a : Allocation) : List Entry := a.nodes.map Entry.ofNode

def entry (a : Allocation) (x : Register) : Except AllocationError Entry :=
  match a.entries[x]? with
  | some entry => .ok entry
  | none => .error (.unresolvedRegister x)

/-- What the registers of all arguments are for, application by application. -/
def argumentEntries (a : Allocation) : Except AllocationError (List Entry) :=
  let entries := a.entries
  collect (Entry.ofArgument entries) (entries.flatMap Entry.args)

def registerOf (a : Allocation) (name : String) : Except AllocationError Register :=
  match a.vars.lookup name with
  | some x => .ok x
  | none => .error (.unallocatedVariable name)

def text (a : Allocation) : String :=
  String.join (a.entries.mapIdx fun x entry => Register.text x ++ " = " ++ entry.text ++ "\n")

end Allocation

end TermMachine
