import TermMachine.Clause
import TermMachine.Event
import TermMachine.Solution

/-!
# Narration

The events of reading, compiling and running, told beside the definitions that do the work. Each
function here follows the one it is named after from the same starting point and lists what happens
in it, so the work itself keeps no record.
-/

namespace TermMachine

namespace Narration

/-! ## The heap -/

def push (h : Heap) (cell : Cell) : List Event :=
  match h.push cell with
  | .ok _ => [.writingCell h.top cell]
  | .error _ => []

def newVariable (h : Heap) : List Event := push h (.ref h.top)

def newStructure (h : Heap) (s : Symbol) : List Event :=
  match h.newStructure s with
  | .ok _ => [.writingCell h.top (.str (h.top + 1)), .writingCell (h.top + 1) (.symbol s)]
  | .error _ => []

def pushCopy (a : Address) (h : Heap) : List Event :=
  match h.load a with
  | .ok cell => push h cell
  | .error _ => []

def bind (h : Heap) (a b : Address) : List Event :=
  match h.binding a b with
  | .ok (source, target) => [.binding source target, .writingCell source (.ref target)]
  | .error _ => []

def unifyPair (h : Heap) (a b : Address) : List Event :=
  .lookingUp a ::
    match h.inspect a with
    | .error _ => []
    | .ok (a, v) =>
        .lookingUp b ::
          match h.inspect b with
          | .error _ => []
          | .ok (b, w) =>
              if a = b then []
              else
                .resolved a v b w ::
                  match v, w with
                  | .compound s _, .compound t _ => if s = t then [] else [.clash s t]
                  | _, _ => bind h a b

def unifyAll : Nat → Heap → List (Address × Address) → List Event
  | _, _, [] => []
  | 0, _, _ :: _ => []
  | fuel + 1, h, (a, b) :: work =>
      unifyPair h a b ++
        match h.unifyPair a b work with
        | .next h work => unifyAll fuel h work
        | .clash | .error _ => []

def unify (fuel : Nat) (h : Heap) (a b : Address) : List Event :=
  .unifying a b :: unifyAll fuel h [(a, b)]

/-! ## The cursor -/

def along (args : Arguments) : List Event := if args.count = 0 then [.noTerms] else []

def behind (v : Visit) : List Event :=
  if v.index + 1 = v.arguments.count then [.finishedStructure] else []

def readNext (c : Cursor) : List Event :=
  match c.pending with
  | .ok v => .readingTerm v.index v.next :: behind v
  | .error _ => []

/-- Events of `Cursor.writeNext`, where writing by itself has the events `written`. -/
def writeNext (c : Cursor) (h : Heap) (write : Heap → Except MemoryError Heap)
    (written : List Event) : List Event :=
  match c.pending with
  | .error _ => []
  | .ok v =>
      written ++
        match write h with
        | .error _ => []
        | .ok _ => .wroteTerm v.index h.top :: if h.top = v.next then behind v else []

/-! ## The machine -/

def openStructure (m : Machine) (s : Symbol) : List Event :=
  match m.openStructure s with
  | .error _ => []
  | .ok m' =>
      newStructure m.heap s ++ .lookingUp m.heap.top :: along ⟨m'.heap.top, s.arity⟩

def putStructure (m : Machine) (s : Symbol) (x : Register) : List Event :=
  .writingStructure s :: openStructure m s ++
    match m.openStructure s with
    | .error _ => []
    | .ok _ => [.storingRegister x m.heap.top]

def setVariable (m : Machine) (x : Register) : List Event :=
  writeNext m.cursor m.heap Heap.newVariable (newVariable m.heap) ++
    match m.cursor.writeNext m.heap Heap.newVariable with
    | (.error _, _) => []
    | (.ok (a, _), _) => [.storingRegister x a]

def setValue (m : Machine) (x : Register) : List Event :=
  .loadingRegister x ::
    match m.registers.load x with
    | .error _ => []
    | .ok a => writeNext m.cursor m.heap (·.pushCopy a) (pushCopy a m.heap)

def getStructure (m : Machine) (s : Symbol) (x : Register) : List Event :=
  .loadingRegister x ::
    match m.registers.load x with
    | .error _ => []
    | .ok a =>
        .lookingUp a ::
          match m.heap.inspect a with
          | .error _ => []
          | .ok (a, .unbound) =>
              .writingStructure s :: openStructure m s ++
                match m.openStructure s with
                | .error _ => []
                | .ok m' => bind m'.heap a m.heap.top
          | .ok (_, .compound t first) =>
              if t = s then
                .readingStructure s ::
                  match m.cursor.verifyIdle with
                  | .ok () => along ⟨first, t.arity⟩
                  | .error _ => []
              else [.symbolMismatch s t]

def unifyVariable (m : Machine) (x : Register) : List Event :=
  match m.cursor.mode with
  | .error _ => []
  | .ok .write => setVariable m x
  | .ok .read =>
      readNext m.cursor ++
        match m.cursor.readNext with
        | .error _ => []
        | .ok (a, _) => [.storingRegister x a]

def unifyValue (fuel : Nat) (m : Machine) (x : Register) : List Event :=
  match m.cursor.mode with
  | .error _ => []
  | .ok .write => setValue m x
  | .ok .read =>
      readNext m.cursor ++
        match m.cursor.readNext with
        | .error _ => []
        | .ok (a, _) =>
            .loadingRegister x ::
              match m.registers.load x with
              | .error _ => []
              | .ok b => unify fuel m.heap b a

def step (fuel : Nat) (m : Machine) : Instruction → List Event
  | .putStructure s x => putStructure m s x
  | .setVariable x => setVariable m x
  | .setValue x => setValue m x
  | .getStructure s x => getStructure m s x
  | .unifyVariable x => unifyVariable m x
  | .unifyValue x => unifyValue fuel m x

def execute (fuel : Nat) (m : Machine) : List Instruction → List Event
  | [] => []
  | i :: is =>
      match m.reachedLimit? with
      | some maxSteps => [.limitExceeded maxSteps]
      | none =>
          let m := { m with steps := m.steps + 1 }
          .executing m.steps i :: step fuel m i ++
            match m.step fuel i with
            | .done m => execute fuel m is
            | .failed _ => [.unificationFailed]
            | .error e _ => [.instructionError i e]
            | .unfinished _ => []

def run (fuel : Nat) (m : Machine) (is : List Instruction) : List Event :=
  if m.status = .failed then [.alreadyFailed]
  else execute fuel { m with status := .running } is

/-! ## Answers -/

/-- Events of looking at things one by one. Nothing more happens after the first error. -/
def collect {α β ε : Type} (f : α → Except ε β) (events : α → List Event) : List α → List Event
  | [] => []
  | a :: as =>
      events a ++
        match f a with
        | .error _ => []
        | .ok _ => collect f events as

def reifyWithin (h : Heap) (names : Naming) : Nat → List Identity → Address → List Event
  | 0, _, _ => []
  | depth + 1, parents, a =>
      .lookingUp a ::
        match h.inspect a with
        | .error _ | .ok (_, .unbound) => []
        | .ok (_, .compound s first) =>
            if parents.contains (.compound first) || s.arity = 0 then []
            else
              collect (h.reifyWithin names depth (.compound first :: parents))
                (reifyWithin h names depth (.compound first :: parents))
                (Arguments.addresses ⟨first, s.arity⟩)

def nameAll (h : Heap) (vars : List (String × Option Address)) : List Event :=
  let addresses := vars.filterMap Prod.snd
  collect h.inspect (fun a => [.lookingUp a]) addresses

def answer (h : Heap) (vars : List (String × Option Address)) : List Event :=
  let vars := Answer.firstOfEach vars
  nameAll h vars ++
    match Answer.nameAll h [] vars with
    | .error _ => []
    | .ok names =>
        collect (Answer.value h names)
          (fun
            | (_, none) => []
            | (_, some a) => reifyWithin h names (h.top + 2) [] a)
          vars

/-! ## Solutions -/

def matchProgram (fuel : Nat) (u : CompiledUnit) (m : Machine) : List Event :=
  match m.capture u.query.vars with
  | .error _ => []
  | .ok queryVariables =>
      run fuel m u.program.instructions ++
        match m.run fuel u.program.instructions with
        | .error _ _ | .unfinished _ => []
        | .ok m =>
            if m.hasFailed then []
            else
              match m.capture u.program.vars with
              | .error _ => []
              | .ok programVariables => answer m.heap (queryVariables ++ programVariables)

def solve (fuel : Nat) (u : CompiledUnit) (limits : Limits) : List Event :=
  let m := Machine.new u.registerCount limits
  run fuel m u.query.instructions ++
    match m.run fuel u.query.instructions with
    | .error _ _ | .unfinished _ => []
    | .ok m => matchProgram fuel u m

def compile (query program : Term) : List Event :=
  let u := CompiledUnit.ofTerms query program
  [.compilingQuery query, .allocated query (.ofTerm query)]
    ++ u.query.instructions.map .compiled
    ++ [.compilingProgram program, .allocated program (.ofTerm program)]
    ++ u.program.instructions.map .compiled

/-- Events of `Clause.readOne`. A second clause is read to see that there is none, unless the first
is faulty. -/
def readOne (table : OperatorTable) (source : List Char) : List Event :=
  match Clause.readAll table source with
  | .ok first :: .ok second :: _ => [.parsed first.plain, .parsed second.plain]
  | .ok first :: _ => [.parsed first.plain]
  | _ => []

end Narration

end TermMachine
