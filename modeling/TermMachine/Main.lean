import TermMachine.CommandLine

/-!
# The program

The outer layer: arguments, files and streams. Lines of input are answered as they come, and what is
written for them, one after the other, is what `Session.converse` lists.
-/

namespace TermMachine

namespace Main

open CommandLine

/-- More work than there is time for, so that only a unification without an end uses it up. -/
def fuel : Nat := 1000000000000000000

/-- What an error of the system is called. An error in reading, unlike one in opening, comes without
a path, and a directory can be opened. -/
def fileError : IO.Error → FileError
  | .noFileOrDirectory .. => .missing
  | .inappropriateType (some _) .. => .notDirectory
  | .inappropriateType none .. => .directory
  | .permissionDenied .. => .denied
  | e => .other (toString e)

def readFile (path : String) : IO Contents := do
  try return .ok (← IO.FS.readBinFile path)
  catch e => return .error (fileError e)

def write (writings : List Writing) : IO Unit := do
  let output ← IO.getStdout
  let error ← IO.getStderr
  for writing in writings do
    match writing with
    | .output text => output.putStr text
    | .error text => error.putStr text
  output.flush

def finish (ending : Ending) : IO UInt32 := do
  write ending.writings
  return ending.status.toUInt32

/-- Reads on to the end of a line of input, whose bytes need not be a text. -/
partial def readLine (input : IO.FS.Stream) (bytes : ByteArray) : IO ByteArray := do
  let next ← input.read 1
  if next.isEmpty || next == "\n".toUTF8 then return bytes ++ next
  else readLine input (bytes ++ next)

partial def converse (session : Session) (input : IO.FS.Stream) : IO UInt32 := do
  write [.output Session.prompt]
  match String.fromUTF8? (← readLine input .empty) with
  | none => finish ⟨failure, [errorLine notText]⟩
  | some "" => finish ⟨success, [.line ""]⟩
  | some line =>
      write (session.respond fuel line.toList)
      converse session input

end Main

end TermMachine

open TermMachine TermMachine.Main TermMachine.CommandLine in
def main (arguments : List String) : IO UInt32 := do
  match start arguments with
  | .error ending => finish ending
  | .ok o =>
      match o.course fuel (← readFile o.program) with
      | .ended ending => finish ending
      | .conversing session => converse session (← IO.getStdin)
