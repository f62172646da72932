import TermMachine.Answer
import TermMachine.Code
import TermMachine.Text.Display

/-!
# Solutions

To solve a query against a program term, the query is built on a new machine, the registers of its
variables are noted, and the program is matched against it. If that succeeds, the registers of the
program's variables are noted as well and the values of all variables make the answer.
-/

namespace TermMachine

/-- Why a query was neither answered nor refused. -/
inductive SolveError where
  | query (e : MachineError)
  | program (e : MachineError)
  /-- The register of a variable of the query could not be read. -/
  | queryVariables (e : MachineError)
  /-- The register of a variable of the program could not be read. -/
  | programVariables (e : MachineError)
  /-- The value of a variable could not be read. -/
  | answer (e : ReifyError)
  | unfinished
deriving Repr, DecidableEq

def SolveError.message : SolveError → String
  | .query e => "Failed to build the query: " ++ e.message
  | .program e => "Failed to unify the program: " ++ e.message
  | .queryVariables e | .programVariables e => e.message
  | .answer e => e.message
  | .unfinished => "the unification does not come to an end"

/-- An attempt to solve a query: the machine after the query was built, if that went well, the
machine at the end, and the answer, which is missing if there is no solution. -/
structure Attempt where
  built? : Option Machine
  machine : Machine
  result : Except SolveError (Option Answer)

namespace Machine

/-- The addresses that variables are found at. -/
def capture (m : Machine) (vars : List (String × Register)) :
    Except MachineError (List (String × Option Address)) :=
  collect
    (fun (name, x) =>
      match m.register x with
      | .error e => .error e
      | .ok slot => .ok (name, slot))
    vars

end Machine

namespace CompiledUnit

def matchProgram (fuel : Nat) (u : CompiledUnit) (m : Machine) : Attempt :=
  match m.capture u.query.vars with
  | .error e => ⟨some m, m, .error (.queryVariables e)⟩
  | .ok queryVariables =>
      match m.run fuel u.program.instructions with
      | .error e m' => ⟨some m, m', .error (.program e)⟩
      | .unfinished m' => ⟨some m, m', .error .unfinished⟩
      | .ok m' =>
          if m'.hasFailed then ⟨some m, m', .ok none⟩
          else
            match m'.capture u.program.vars with
            | .error e => ⟨some m, m', .error (.programVariables e)⟩
            | .ok programVariables =>
                match Answer.ofVariables m'.heap (queryVariables ++ programVariables) with
                | .error e => ⟨some m, m', .error (.answer e)⟩
                | .ok answer => ⟨some m, m', .ok (some answer)⟩

def solve (fuel : Nat) (u : CompiledUnit) (limits : Limits) : Attempt :=
  match (Machine.new u.registerCount limits).run fuel u.query.instructions with
  | .error e m => ⟨none, m, .error (.query e)⟩
  | .unfinished m => ⟨none, m, .error .unfinished⟩
  | .ok m => u.matchProgram fuel m

end CompiledUnit

namespace Answer

def text (answer : Answer) : String :=
  Text.Style.success.paint "yes"
    ++ String.join (answer.interesting.map fun binding => "\n" ++ bindingText binding)

end Answer

end TermMachine
