import TermMachine.Allocation
import TermMachine.Machine
import TermMachine.Text.Display

/-!
# Events

What a log tells of reading, compiling and running, as data. An event has a level, which says how
closely one has to look to be told of it, and a wording.
-/

namespace TermMachine

/-- How closely one has to look. -/
inductive Level where
  | error
  | debug
  | trace
deriving Repr, DecidableEq

namespace Level

def text : Level → String
  | .error => "ERROR"
  | .debug => "DEBUG"
  | .trace => "TRACE"

/-- Looking at level `limit` shows the level `l`. -/
def shows (limit l : Level) : Bool :=
  match limit, l with
  | _, .error => true
  | .error, _ => false
  | _, .debug => true
  | .debug, .trace => false
  | .trace, .trace => true

end Level

inductive Event where
  | parsed (t : Term)
  | compilingQuery (t : Term)
  | compilingProgram (t : Term)
  | allocated (t : Term) (a : Allocation)
  | compiled (i : Instruction)
  | alreadyFailed
  | limitExceeded (maxSteps : Nat)
  | executing (step : Nat) (i : Instruction)
  | unificationFailed
  | instructionError (i : Instruction) (e : MachineError)
  | writingStructure (s : Symbol)
  | readingStructure (s : Symbol)
  | symbolMismatch (expected found : Symbol)
  | loadingRegister (x : Register)
  | storingRegister (x : Register) (a : Address)
  | lookingUp (a : Address)
  | writingCell (a : Address) (cell : Cell)
  | binding (source target : Address)
  | unifying (a b : Address)
  | resolved (a : Address) (v : Value) (b : Address) (w : Value)
  | clash (s t : Symbol)
  | noTerms
  | readingTerm (index : Nat) (a : Address)
  | wroteTerm (index : Nat) (a : Address)
  | finishedStructure
deriving Repr

namespace Event

def level : Event → Level
  | .limitExceeded _ | .instructionError _ _ => .error
  | .parsed _ | .compilingQuery _ | .compilingProgram _ | .allocated _ _ | .compiled _
  | .alreadyFailed | .executing _ _ | .unificationFailed => .debug
  | .writingStructure _ | .readingStructure _ | .symbolMismatch _ _ | .loadingRegister _
  | .storingRegister _ _ | .lookingUp _ | .writingCell _ _ | .binding _ _ | .unifying _ _
  | .resolved _ _ _ _ | .clash _ _ | .noTerms | .readingTerm _ _ | .wroteTerm _ _
  | .finishedStructure => .trace

def addressText (a : Address) : String := "Address(" ++ toString a ++ ")"

def arityText (n : Nat) : String := "Arity(" ++ toString n ++ ")"

def valueText (a : Address) : Value → String
  | .unbound => "Reference(" ++ addressText a ++ ")"
  | .compound s first =>
      "Structure \x7b functor: Functor \x7b name: " ++ Text.literal s.name ++ ", arity: "
        ++ arityText s.arity ++ " \x7d, terms: TermsSlice \x7b first_term: " ++ addressText first
        ++ ", terms_count: " ++ arityText s.arity ++ " \x7d \x7d"

def text : Event → String
  | .parsed t => "Parsed " ++ t.render
  | .compilingQuery t => "Compiling query " ++ t.render
  | .compilingProgram t => "Compiling program " ++ t.render
  | .allocated t a => "Allocated registers for " ++ t.render ++ ":\n" ++ a.text
  | .compiled i => i.text
  | .alreadyFailed => "Machine has already failed"
  | .limitExceeded maxSteps => "Exceeded limit of " ++ toString maxSteps ++ " instructions"
  | .executing step i => "Instruction #" ++ toString step ++ " : " ++ i.text
  | .unificationFailed => "FAIL!"
  | .instructionError i e => "Error while executing " ++ i.text ++ ": " ++ e.message
  | .writingStructure s => "Writing structure " ++ s.text
  | .readingStructure s => "Reading structure " ++ s.text
  | .symbolMismatch expected found => "Expected " ++ expected.text ++ ", found " ++ found.text
  | .loadingRegister x => "Loading Register " ++ x.text
  | .storingRegister x a => x.text ++ " = " ++ toString a
  | .lookingUp a => "Looking up memory at " ++ toString a
  | .writingCell a cell => toString a ++ " <= " ++ cell.text
  | .binding source target => "Binding " ++ toString source ++ " to " ++ toString target
  | .unifying a b => "Unifying " ++ toString a ++ " and " ++ toString b
  | .resolved a v b w =>
      "Resolved to " ++ valueText a v ++ " @ " ++ toString a ++ " and " ++ valueText b w ++ " @ "
        ++ toString b
  | .clash s t => s.text ++ " does not match " ++ t.text
  | .noTerms => "Structure has no terms"
  | .readingTerm index a => "Reading term " ++ toString index ++ " at " ++ toString a
  | .wroteTerm index a => "Wrote term " ++ toString index ++ " at " ++ toString a
  | .finishedStructure => "Finished iterating over structure"

end Event

end TermMachine
