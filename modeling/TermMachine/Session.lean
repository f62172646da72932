import TermMachine.Narration
import TermMachine.Report
import TermMachine.Text.Display

/-!
# Sessions

A session holds program terms and answers queries about them. A query is unified with every program
term on a machine of its own, so no query leaves a trace for the next one. What a session says is a
list of texts for standard output and for the error stream, in the order they are written.
-/

namespace TermMachine

inductive Writing where
  | output (text : String)
  | error (text : String)
deriving Repr, DecidableEq

namespace Writing

def line (text : String) : Writing := .output (text ++ "\n")

def outputText (writings : List Writing) : String :=
  String.join (writings.map fun
    | .output text => text
    | .error _ => "")

def errorText (writings : List Writing) : String :=
  String.join (writings.map fun
    | .output _ => ""
    | .error text => text)

end Writing

def Event.logLine (e : Event) : String :=
  " " ++ e.level.text ++ " wam::machine > " ++ e.text ++ "\n"

def Attempt.verdict (attempt : Attempt) : String :=
  match attempt.result with
  | .ok (some answer) => answer.text
  | .ok none => Text.Style.failure.paint "no"
  | .error e => Text.Style.failure.paint e.message

/-- The code of the program term has been run without an error, be it with or without success. -/
def Attempt.hasRun (attempt : Attempt) : Bool :=
  match attempt.result with
  | .ok _ | .error (.programVariables _) | .error (.answer _) => true
  | .error (.query _) | .error (.queryVariables _) => false
  | .error (.program _) | .error .unfinished => false

/-- Program terms, and what is shown of unifying queries with them. -/
structure Session where
  program : List Term
  limits : Limits
  /-- The code of a query and a program term is shown before it is run. -/
  showCode : Bool
  dumpMachine : Bool

namespace Session

/-- What a query is called in reports. -/
def querySource : String := "<query>"

def prompt : String := "?- "

/-- Runs the code of a query and a program term. The log tells of errors only. -/
def runUnit (s : Session) (fuel : Nat) (u : CompiledUnit) : List Writing :=
  let attempt := u.solve fuel s.limits
  let logged := (Narration.solve fuel u s.limits).filter fun e => Level.error.shows e.level
  (if s.showCode then [.line u.text] else [])
    ++ logged.map (fun e => .error e.logLine)
    ++ (if s.dumpMachine && attempt.hasRun then [.line attempt.machine.text] else [])
    ++ [.line (attempt.verdict ++ ".")]

/-- Unifies a query with one program term, or reports why there is no code for them. -/
def unify (s : Session) (fuel : Nat) (query program : Term) : List Writing :=
  (if 1 < s.program.length then [.line (Text.Style.note.paint ("% " ++ program.render))] else [])
    ++ match CompiledUnit.compile query program with
      | .error e => [.line (Text.Style.failure.paint e.message)]
      | .ok u => s.runUnit fuel u

/-- Unifies a query with every program term, or reports why it cannot be read. -/
def ask (s : Session) (fuel : Nat) (source : List Char) : List Writing :=
  match Clause.readOne OperatorTable.standard source with
  | .error e => [.line (Report.render querySource source e)]
  | .ok query => s.program.flatMap (s.unify fuel query.plain)

def askAll (s : Session) (fuel : Nat) (queries : List String) : List Writing :=
  queries.flatMap fun query => s.ask fuel query.toList

/-- Takes a line of input for a query, unless it is blank. -/
def respond (s : Session) (fuel : Nat) (line : List Char) : List Writing :=
  let query := Text.trim line
  if query.isEmpty then [] else s.ask fuel query

/-- Takes every line of input for a query, with a prompt before each and before the end. -/
def converse (s : Session) (fuel : Nat) : List (List Char) → List Writing
  | [] => [.line prompt]
  | line :: lines => .output prompt :: (s.respond fuel line ++ s.converse fuel lines)

end Session

end TermMachine
