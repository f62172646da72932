import TermMachine.CommandLine.Options
import TermMachine.Session

/-!
# The command line

A run reads the program terms from a file and then answers queries, those of the command line or,
if it has none, those of standard input. What it does depends on the arguments, on the file and on
the input, and on nothing else.
-/

namespace TermMachine

namespace CommandLine

inductive FileError where
  | missing
  | directory
  | notDirectory
  | denied
  | other (reason : String)
deriving Repr, DecidableEq

def FileError.message : FileError → String
  | .missing => "No such file or directory (os error 2)"
  | .directory => "Is a directory (os error 21)"
  | .notDirectory => "Not a directory (os error 20)"
  | .denied => "Permission denied (os error 13)"
  | .other reason => reason

abbrev Contents := Except FileError ByteArray

/-- The words for bytes that are no text. -/
def notText : String := "stream did not contain valid UTF-8"

/-- Why there is no session. -/
inductive LoadError where
  | unread (path reason : String)
  | faulty (path : String) (source : List Char) (e : Clause.SyntaxError)

def LoadError.message : LoadError → String
  | .unread path reason => "Failed to open " ++ path ++ ": " ++ reason
  | .faulty path source e => Report.render path source e

def errorLine (message : String) : Writing := .error ("Error: " ++ message ++ "\n")

def decode (path : String) : Contents → Except LoadError (List Char)
  | .error e => .error (.unread path e.message)
  | .ok bytes =>
      match String.fromUTF8? bytes with
      | none => .error (.unread path notText)
      | some text => .ok text.toList

/-- The session that the options ask for, with the clauses of the program. The first faulty clause
stands in the way of all. -/
def Options.load (o : Options) (contents : Contents) : Except LoadError Session :=
  match decode o.program contents with
  | .error e => .error e
  | .ok source =>
      match collect id (Clause.readAll OperatorTable.standard source) with
      | .error e => .error (.faulty o.program source e)
      | .ok program =>
          let limits := ⟨o.heapCapacity, o.maxSteps⟩
          .ok ⟨program.map SourceTerm.plain, limits, o.showCode, o.dumpMachine⟩

/-- How a run ends: the status it leaves, and what it has written. -/
structure Ending where
  status : Nat
  writings : List Writing
deriving Repr, DecidableEq

def success : Nat := 0

def failure : Nat := 1

/-- The status after a command line that is wrong. -/
def misuse : Nat := 2

def usage : String := "Usage: termmachine [OPTIONS] <PROGRAM>\n"

def help : String :=
  usage
    ++ "\nArguments:\n"
    ++ "  <PROGRAM>  The file of program terms to unify queries against\n"
    ++ "\nOptions:\n"
    ++ "  -q, --query <QUERIES>\n"
    ++ "          Run this query and exit rather than reading queries from the terminal\n"
    ++ "      --show-code\n"
    ++ "          Print the compiled instructions of each query and program term\n"
    ++ "      --dump-machine\n"
    ++ "          Print the state of the machine after each run\n"
    ++ "      --heap-capacity <HEAP_CAPACITY>\n"
    ++ "          The maximum number of heap cells used by a query and a program term together\n"
    ++ "      --max-steps <MAX_STEPS>\n"
    ++ "          The maximum number of instructions executed by a query and a program term "
    ++ "together\n"
    ++ "  -h, --help\n"
    ++ "          Print help\n"

def UsageError.writing (e : UsageError) : Writing :=
  .error ("error: " ++ e.message ++ "\n\n" ++ usage ++ "\nFor more information, try '--help'.\n")

/-- What the arguments come to: a run with options, or an ending before anything is read. -/
def start (arguments : List String) : Except Ending Options :=
  match request arguments with
  | .error e => .error ⟨misuse, [e.writing]⟩
  | .ok .help => .error ⟨success, [.output help]⟩
  | .ok (.run options) => .ok options

/-- What a run comes to when its file has been read. -/
inductive Course where
  /-- The queries have been answered, or there is no session to ask them. -/
  | ended (ending : Ending)
  /-- The queries are still to be read from standard input. -/
  | conversing (session : Session)

/-- Answers the queries of the command line. -/
def Options.course (o : Options) (fuel : Nat) (contents : Contents) : Course :=
  match o.load contents with
  | .error e => .ended ⟨failure, [errorLine e.message]⟩
  | .ok session =>
      if o.queries.isEmpty then .conversing session
      else .ended ⟨success, session.askAll fuel o.queries⟩

/-- A whole run. `read` gives the files and `input` is the standard input. Of the input nothing is
looked at if the command line has queries. -/
def run (fuel : Nat) (arguments : List String) (read : String → Contents) (input : List Char) :
    Ending :=
  match start arguments with
  | .error ending => ending
  | .ok o =>
      match o.course fuel (read o.program) with
      | .ended ending => ending
      | .conversing session => ⟨success, session.converse fuel (Text.splitLines input)⟩

end CommandLine

end TermMachine
