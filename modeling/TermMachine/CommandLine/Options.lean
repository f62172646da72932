import TermMachine.Collect

/-!
# Options

What the arguments of a command line ask for. Options are long, as in `--query TEXT` and
`--query=TEXT`, or short, as in `-q TEXT`, `-qTEXT` and `-q=TEXT`. A single hyphen is no option.
After `--` nothing is an option. The only option that may be repeated is the query.

Arguments are taken apart by a library, whose code is not part of this project. The rules here are
what is assumed of it, and its texts for usage and help are left out.
-/

namespace TermMachine

namespace CommandLine

inductive Flag where
  | showCode
  | dumpMachine
deriving Repr, DecidableEq

inductive Setting where
  | query
  | heapCapacity
  | maxSteps
deriving Repr, DecidableEq

def Flag.name : Flag → String
  | .showCode => "--show-code"
  | .dumpMachine => "--dump-machine"

def Setting.name : Setting → String
  | .query => "--query"
  | .heapCapacity => "--heap-capacity"
  | .maxSteps => "--max-steps"

inductive UsageError where
  | missingProgram
  | unknownArgument (argument : String)
  | missingValue (s : Setting)
  | invalidValue (name value : String)
  | repeated (name : String)
deriving Repr, DecidableEq

def UsageError.message : UsageError → String
  | .missingProgram => "the program is missing"
  | .unknownArgument argument => "unexpected argument " ++ argument
  | .missingValue s => "a value is missing for " ++ s.name
  | .invalidValue name value => "invalid value " ++ value ++ " for " ++ name
  | .repeated name => name ++ " cannot be used multiple times"

/-! ## Arguments one by one -/

/-- What an argument is, seen on its own. -/
inductive Argument where
  | endOfOptions
  | positional (text : String)
  | help
  | flag (f : Flag)
  | setting (s : Setting) (value : Option String)
  | unknown
deriving Repr, DecidableEq

namespace Argument

/-- The name of a long option and the value behind an equals sign. -/
def splitName (chars : List Char) : String × Option String :=
  match chars.span (· ≠ '=') with
  | (name, []) => (String.ofList name, none)
  | (name, _ :: value) => (String.ofList name, some (String.ofList value))

def ofLong (chars : List Char) : Argument :=
  match splitName chars with
  | ("query", value) => .setting .query value
  | ("heap-capacity", value) => .setting .heapCapacity value
  | ("max-steps", value) => .setting .maxSteps value
  | ("show-code", none) => .flag .showCode
  | ("dump-machine", none) => .flag .dumpMachine
  | ("help", none) => .help
  | _ => .unknown

def ofShort : List Char → Argument
  | ['q'] => .setting .query none
  | 'q' :: '=' :: value => .setting .query (some (String.ofList value))
  | 'q' :: value => .setting .query (some (String.ofList value))
  | 'h' :: _ => .help
  | _ => .unknown

def ofText (text : String) : Argument :=
  match text.toList with
  | ['-', '-'] => .endOfOptions
  | '-' :: '-' :: chars => ofLong chars
  | ['-'] => .positional text
  | '-' :: chars => ofShort chars
  | _ => .positional text

end Argument

/-! ## Options -/

structure Options where
  program : String
  /-- The queries. If there are none, they are read from standard input. -/
  queries : List String
  showCode : Bool
  dumpMachine : Bool
  heapCapacity : Option Nat
  maxSteps : Option Nat
deriving Repr, DecidableEq

structure Draft where
  program : Option String
  queries : List String
  showCode : Bool
  dumpMachine : Bool
  heapCapacity : Option Nat
  maxSteps : Option Nat
deriving Repr, DecidableEq

/-- What is asked for: help, or a run. -/
inductive Request where
  | help
  | run (options : Options)
deriving Repr, DecidableEq

/-- A number below two to the power of sixty-four in decimal digits, with a plus sign at most. -/
def readNat? (text : String) : Option Nat :=
  let digits := match text.toList with
    | '+' :: digits => digits
    | digits => digits
  if digits.isEmpty || !digits.all Char.isDigit then none
  else
    let n := digits.foldl (fun n c => 10 * n + (c.toNat - '0'.toNat)) 0
    if n < UInt64.size then some n else none

namespace Draft

def empty : Draft := ⟨none, [], false, false, none, none⟩

/-- Takes an argument for the program, of which there is one, with a path that is not empty. -/
def setProgram (d : Draft) (text : String) : Except UsageError Draft :=
  if d.program.isSome then .error (.unknownArgument text)
  else if text.isEmpty then .error (.invalidValue "the program" text)
  else .ok { d with program := some text }

def setFlag (d : Draft) : Flag → Except UsageError Draft
  | .showCode =>
      if d.showCode then .error (.repeated Flag.showCode.name) else .ok { d with showCode := true }
  | .dumpMachine =>
      if d.dumpMachine then .error (.repeated Flag.dumpMachine.name)
      else .ok { d with dumpMachine := true }

/-- Reads the value of a setting that is a number. -/
def readLimit (s : Setting) (current : Option Nat) (text : String) : Except UsageError Nat :=
  match readNat? text with
  | none => .error (.invalidValue s.name text)
  | some n => if current.isSome then .error (.repeated s.name) else .ok n

def set (d : Draft) (s : Setting) (text : String) : Except UsageError Draft :=
  match s with
  | .query => .ok { d with queries := d.queries ++ [text] }
  | .heapCapacity =>
      match readLimit s d.heapCapacity text with
      | .error e => .error e
      | .ok n => .ok { d with heapCapacity := some n }
  | .maxSteps =>
      match readLimit s d.maxSteps text with
      | .error e => .error e
      | .ok n => .ok { d with maxSteps := some n }

def finish (d : Draft) : Except UsageError Request :=
  match d.program with
  | none => .error .missingProgram
  | some program =>
      .ok (.run
        ⟨program, d.queries, d.showCode, d.dumpMachine, d.heapCapacity, d.maxSteps⟩)

/-- Reads arguments behind the end of the options. -/
def readPositionals (d : Draft) : List String → Except UsageError Request
  | [] => d.finish
  | text :: rest =>
      match d.setProgram text with
      | .error e => .error e
      | .ok d => d.readPositionals rest

/-- Reads arguments. Help is given as soon as it is asked for. -/
def read (d : Draft) : List String → Except UsageError Request
  | [] => d.finish
  | text :: rest =>
      match Argument.ofText text with
      | .endOfOptions => d.readPositionals rest
      | .help => .ok .help
      | .unknown => .error (.unknownArgument text)
      | .positional text =>
          match d.setProgram text with
          | .error e => .error e
          | .ok d => d.read rest
      | .flag f =>
          match d.setFlag f with
          | .error e => .error e
          | .ok d => d.read rest
      | .setting s (some value) =>
          match d.set s value with
          | .error e => .error e
          | .ok d => d.read rest
      | .setting s none =>
          match rest with
          | [] => .error (.missingValue s)
          | value :: rest =>
              match Argument.ofText value with
              | .positional value =>
                  match d.set s value with
                  | .error e => .error e
                  | .ok d => d.read rest
              | _ => .error (.missingValue s)

end Draft

def request (arguments : List String) : Except UsageError Request := Draft.empty.read arguments

end CommandLine

end TermMachine
