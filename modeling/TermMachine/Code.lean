import TermMachine.Allocation
import TermMachine.Registers

/-!
# Code for terms

A term is compiled in one of two ways. The code for a query builds the term in the heap, with
structures built before the structures that contain them, so that the whole term comes last. The
code for a program matches the term against what register 0 holds, structure by structure in the
order of the registers, so that a register has been written before its structure is matched.

In both, the first time a variable is met its register is written, and every other time it is read.
-/

namespace TermMachine

namespace Code

/-- The registers of variables that have been met. -/
abbrev Seen := List Register

/-! ## Queries -/

def setArgument (seen : Seen) : Node → Instruction × Seen
  | .var x _ => if seen.contains x then (.setValue x, seen) else (.setVariable x, x :: seen)
  | node => (.setValue node.register, seen)

def setArguments (seen : Seen) : List Node → List Instruction × Seen
  | [] => ([], seen)
  | node :: nodes =>
      let (i, seen) := setArgument seen node
      let (is, seen) := setArguments seen nodes
      (i :: is, seen)

mutual

/-- Builds a structure, after the structures among its arguments. -/
def build (seen : Seen) : Node → List Instruction × Seen
  | .compound x name args =>
      let (parts, seen) := buildAll seen args
      let (is, seen) := setArguments seen args
      (parts ++ .putStructure ⟨name, args.length⟩ x :: is, seen)
  | .constant _ | .var _ _ => ([], seen)

def buildAll (seen : Seen) : List Node → List Instruction × Seen
  | [] => ([], seen)
  | node :: nodes =>
      let (is, seen) := build seen node
      let (more, seen) := buildAll seen nodes
      (is ++ more, seen)

end

/-! ## Programs -/

def unifyArgument (seen : Seen) : Node → Instruction × Seen
  | .var x _ =>
      if seen.contains x then (.unifyValue x, seen) else (.unifyVariable x, x :: seen)
  | node => (.unifyVariable node.register, seen)

def unifyArguments (seen : Seen) : List Node → List Instruction × Seen
  | [] => ([], seen)
  | node :: nodes =>
      let (i, seen) := unifyArgument seen node
      let (is, seen) := unifyArguments seen nodes
      (i :: is, seen)

def matchAll (seen : Seen) : List Node → List Instruction
  | [] => []
  | .compound x name args :: nodes =>
      let (is, seen) := unifyArguments seen args
      .getStructure ⟨name, args.length⟩ x :: is ++ matchAll seen nodes
  | _ :: nodes => matchAll seen nodes

end Code

/-- Why a term cannot be compiled. -/
inductive CompileError where
  /-- A structure cannot hold so many arguments. -/
  | invalidTerm (name : String) (arity : Nat)
  /-- A register is missing, or is not what the code would need it to be. -/
  | allocation (e : AllocationError)
deriving Repr, DecidableEq

def CompileError.message : CompileError → String
  | .invalidTerm name arity =>
      name ++ " has " ++ toString arity ++ " arguments, which is more than a structure can hold"
  | .allocation e => e.message

structure CompiledTerm where
  instructions : List Instruction
  /-- The variables of the term in the order of their first occurrences, with their registers. -/
  vars : List (String × Register)
  registerCount : Nat
deriving Repr, DecidableEq

namespace CompiledTerm

def variablesOf (t : Term) (a : Allocation) : List (String × Register) :=
  t.vars.filterMap fun name => (a.vars.lookup name).map fun x => (name, x)

def query (t : Term) : CompiledTerm :=
  let a := Allocation.ofTerm t
  ⟨(Code.build [] a.root).1, variablesOf t a, a.registerCount⟩

def program (t : Term) : CompiledTerm :=
  let a := Allocation.ofTerm t
  ⟨Code.matchAll [] a.nodes, variablesOf t a, a.registerCount⟩

/-- Compiles a term, unless one of its applications is too wide. The registers of all arguments and
variables are looked up on the way. -/
def checked (code : Allocation → List Instruction) (t : Term) :
    Except CompileError CompiledTerm :=
  match t.tooWide? with
  | some (name, arity) => .error (.invalidTerm name arity)
  | none =>
      let a := Allocation.ofTerm t
      match a.argumentEntries with
      | .error e => .error (.allocation e)
      | .ok _ =>
          match collect (fun name => (a.registerOf name).map (Prod.mk name)) t.vars with
          | .error e => .error (.allocation e)
          | .ok vars => .ok ⟨code a, vars, a.registerCount⟩

def compileQuery : Term → Except CompileError CompiledTerm :=
  checked fun a => (Code.build [] a.root).1

def compileProgram : Term → Except CompileError CompiledTerm :=
  checked fun a => Code.matchAll [] a.nodes

def listing (c : CompiledTerm) : List String := c.instructions.map Instruction.text

end CompiledTerm

/-- A query and a program that are to run on one machine. -/
structure CompiledUnit where
  query : CompiledTerm
  program : CompiledTerm
deriving Repr, DecidableEq

namespace CompiledUnit

def compile (query program : Term) : Except CompileError CompiledUnit :=
  match CompiledTerm.compileQuery query with
  | .error e => .error e
  | .ok query =>
      match CompiledTerm.compileProgram program with
      | .error e => .error e
      | .ok program => .ok ⟨query, program⟩

def ofTerms (query program : Term) : CompiledUnit := ⟨.query query, .program program⟩

def instructions (u : CompiledUnit) : List Instruction :=
  u.query.instructions ++ u.program.instructions

def registerCount (u : CompiledUnit) : Nat := max u.query.registerCount u.program.registerCount

def listing (u : CompiledUnit) : List String := u.query.listing ++ u.program.listing

def text (u : CompiledUnit) : String := "\n".intercalate u.listing

end CompiledUnit

end TermMachine
