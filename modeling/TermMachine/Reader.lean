import TermMachine.Term

/-!
# Readers

A reader takes a value off the front of an input, or fails. It also keeps account of failures for
the message about a text that cannot be read: every failure knows the position it was noticed at, a
success carries the furthest failure that was passed over on the way to it, and when reading stops
for good the failure that got furthest is the one to report. Of two failures at one position one is
kept, with what either of them expected instead.

The account never decides what is read. `Reply.result?` forgets it, and the lemmas on `result?` give
each combinator its meaning without it.

The combinators are those of a library for parsers, whose code is not part of this project. What is
assumed of it is what the definitions below say. A sequence does not try again where its first part
could have been read differently, an alternative that has succeeded is not given up for a later one,
and a repetition takes all it can get and leaves what its last attempt has taken. A stretch goes
from the start of the first item that was read to the end of the last. As for the account: `pair`
compares a failure of its second part with what its first part has passed over, `choice` forgets
the failures of the alternatives before the one that succeeds while `orElse` and the repetitions
remember them, a complaint stands behind all that was read and forgets what was passed over, and a
label is given to failures that have none.
-/

namespace TermMachine

/-- What remains to be read. An item is a character or a token, together with the stretch of the
source it covers. -/
structure Input (ι : Type) where
  items : List (ι × Span)
  /-- Where the last item that was read stops. -/
  previousStop : Nat
  finish : Nat

namespace Input

variable {ι : Type}

/-- Where the next item starts, or where the source stops if there is none. -/
def offset (input : Input ι) : Nat :=
  match input.items with
  | [] => input.finish
  | (_, span) :: _ => span.start

/-- The stretch from the start of `input` to the end of the last item read before `rest`. -/
def spanTo (input rest : Input ι) : Span := ⟨input.offset, rest.previousStop⟩

end Input

/-- A fault that is described in words of its own. -/
inductive Complaint where
  | invalidNumber
  | expectedTerm
  | expectedOperator
  | priorityClash
  /-- A second term where a single one was asked for; the text of the second one. -/
  | secondTerm (text : String)
deriving Repr, DecidableEq

def Complaint.message : Complaint → String
  | .invalidNumber => "Invalid number"
  | .expectedTerm => "Expected a term"
  | .expectedOperator => "Expected an operator"
  | .priorityClash => "Operator priority clash"
  | .secondTerm text => "Expected a single term, found " ++ text ++ " as well"

/-- Why reading failed: at an item, or at the end of the input, or for a stated reason. -/
inductive Cause (ι : Type) where
  | unexpected (found : Option ι)
  | complaint (complaint : Complaint)
deriving Repr, DecidableEq

/-- A failure to read. The position orders failures; the span is the stretch to point at. What could
have stood there instead is a list of items, where `none` is the end of the input. -/
structure Failure (ι : Type) where
  position : Nat
  span : Span
  cause : Cause ι
  expected : List (Option ι)
  label : Option String
deriving Repr, DecidableEq

namespace Failure

variable {ι κ : Type}

def map (f : ι → κ) (e : Failure ι) : Failure κ where
  position := e.position
  span := e.span
  cause :=
    match e.cause with
    | .unexpected found => .unexpected (found.map f)
    | .complaint complaint => .complaint complaint
  expected := e.expected.map (Option.map f)
  label := e.label

variable [BEq ι]

/-- The failure that got further. At one position the first is kept and takes over what the second
expected. -/
def furthest (a b : Failure ι) : Failure ι :=
  if a.position < b.position then b
  else if b.position < a.position then a
  else { a with expected := a.expected ++ b.expected.filter fun x => !a.expected.contains x }

/-- The failure that got further of two that were passed over, the later one first at a tie. -/
def join : Option (Failure ι) → Option (Failure ι) → Option (Failure ι)
  | some a, some b => some (furthest b a)
  | some a, none => some a
  | none, b => b

def furthestOf (a : Failure ι) : Option (Failure ι) → Failure ι
  | some b => furthest a b
  | none => a

end Failure

/-- What reading gives: a value, what remains to be read and the furthest failure that was passed
over, or a failure. -/
inductive Reply (ι α : Type) where
  | ok (value : α) (rest : Input ι) (passed : Option (Failure ι))
  | failed (failure : Failure ι)

/-- The value and the rest, without the account of failures. -/
def Reply.result? {ι α : Type} : Reply ι α → Option (α × Input ι)
  | .ok value rest _ => some (value, rest)
  | .failed _ => none

@[simp] theorem Reply.result?_ok {ι α : Type} (value : α) (rest : Input ι)
    (passed : Option (Failure ι)) :
    (Reply.ok value rest passed).result? = some (value, rest) := rfl

@[simp] theorem Reply.result?_failed {ι α : Type} (failure : Failure ι) :
    (Reply.failed failure : Reply ι α).result? = none := rfl

abbrev Reader (ι α : Type) := Input ι → Reply ι α

namespace Reader

variable {ι α β : Type}

/-- Reads the next item if `f` gives it a value. A failure mentions `expected`. -/
def item (expected : List (Option ι)) (f : ι → Span → Option α) : Reader ι α := fun input =>
  match input.items with
  | [] => .failed ⟨input.finish, .point input.finish, .unexpected none, expected, none⟩
  | (x, span) :: rest =>
      match f x span with
      | some value => .ok value ⟨rest, span.stop, input.finish⟩ none
      | none => .failed ⟨span.start, span, .unexpected (some x), expected, none⟩

def satisfying (p : ι → Bool) : Reader ι ι := item [] fun x _ => if p x then some x else none

def exactly [BEq ι] (x : ι) : Reader ι ι :=
  item [some x] fun y _ => if y == x then some y else none

/-- Succeeds at the end of the input only, and reads nothing. -/
def finished : Reader ι Unit := fun input =>
  match input.items with
  | [] => .ok () input none
  | (x, span) :: _ => .failed ⟨span.start, span, .unexpected (some x), [none], none⟩

def map (f : α → β) (p : Reader ι α) : Reader ι β := fun input =>
  match p input with
  | .ok value rest passed => .ok (f value) rest passed
  | .failed e => .failed e

def mapSpan (f : α → Span → β) (p : Reader ι α) : Reader ι β := fun input =>
  match p input with
  | .ok value rest passed => .ok (f value (input.spanTo rest)) rest passed
  | .failed e => .failed e

/-- Applies `f` to the value read and the stretch it was read from. If `f` complains, reading has
failed after all, behind everything that was read, and what was passed over is forgotten. -/
def check (f : α → Span → Except (Span × Complaint) β) (p : Reader ι α) : Reader ι β := fun input =>
  match p input with
  | .ok value rest passed =>
      match f value (input.spanTo rest) with
      | .ok value => .ok value rest passed
      | .error (span, complaint) => .failed ⟨rest.offset, span, .complaint complaint, [], none⟩
  | .failed e => .failed e

/-- Names what was being read in a failure that has no name yet. -/
def labelled (label : String) (p : Reader ι α) : Reader ι α := fun input =>
  match p input with
  | .ok value rest passed => .ok value rest passed
  | .failed e => .failed { e with label := some (e.label.getD label) }

variable [BEq ι]

def pair (p : Reader ι α) (q : Reader ι β) : Reader ι (α × β) := fun input =>
  match p input with
  | .failed e => .failed e
  | .ok a middle passed =>
      match q middle with
      | .failed e => .failed (e.furthestOf passed)
      | .ok b rest passed' => .ok (a, b) rest (Failure.join passed passed')

def first (p : Reader ι α) (q : Reader ι β) : Reader ι α := (p.pair q).map Prod.fst

def second (p : Reader ι α) (q : Reader ι β) : Reader ι β := (p.pair q).map Prod.snd

def between (opening closing : ι) (p : Reader ι α) : Reader ι α :=
  ((exactly opening).second p).first (exactly closing)

/-- Tries alternatives after `e` has been noted. -/
def choiceAfter (e : Failure ι) : List (Reader ι α) → Reader ι α
  | [], _ => .failed e
  | p :: ps, input =>
      match p input with
      | .ok value rest passed => .ok value rest passed
      | .failed e' => choiceAfter (e'.furthest e) ps input

/-- Reads the first alternative that succeeds. A success forgets the failures of the alternatives
before it. -/
def choice (p : Reader ι α) (ps : List (Reader ι α)) : Reader ι α := fun input =>
  match p input with
  | .ok value rest passed => .ok value rest passed
  | .failed e => choiceAfter e ps input

/-- Reads `p`, or else `q`. A success of `q` remembers the failure of `p`. -/
def orElse (p q : Reader ι α) : Reader ι α := fun input =>
  match p input with
  | .ok value rest passed => .ok value rest passed
  | .failed e =>
      match q input with
      | .ok value rest passed => .ok value rest (Failure.join passed (some e))
      | .failed e' => .failed (e.furthest e')

def optional (p : Reader ι α) : Reader ι (Option α) := fun input =>
  match p input with
  | .ok value rest passed => .ok (some value) rest passed
  | .failed e => .ok none input (some e)

def manyUpTo (p : Reader ι α) : Nat → Option (Failure ι) → Reader ι (List α)
  | 0, passed, input => .ok [] input passed
  | n + 1, passed, input =>
      match p input with
      | .failed e => .ok [] input (Failure.join passed (some e))
      | .ok value rest passed' =>
          (manyUpTo p n (Failure.join passed passed')).map (value :: ·) rest

/-- Reads `p` as often as it is there. Every repetition reads an item at least, so one attempt more
than there are items is enough to meet the end. -/
def many (p : Reader ι α) : Reader ι (List α) := fun input =>
  manyUpTo p (input.items.length + 1) none input

def many1 (p : Reader ι α) : Reader ι (List α) := fun input =>
  match p input with
  | .failed e => .failed e
  | .ok value rest passed => (manyUpTo p (rest.items.length + 1) passed).map (value :: ·) rest

def skipFrom (p : Reader ι α) (finish : Nat) :
    List (ι × Span) → Nat → Option (Failure ι) → Reply ι α
  | [], stop, passed =>
      match p ⟨[], stop, finish⟩ with
      | .ok value rest passed' => .ok value rest (Failure.join passed passed')
      | .failed e => .failed e
  | (x, span) :: items, stop, passed =>
      match p ⟨(x, span) :: items, stop, finish⟩ with
      | .ok value rest passed' => .ok value rest (Failure.join passed passed')
      | .failed e => skipFrom p finish items span.stop (Failure.join passed (some e))

/-- Skips everything in front of `p`, and reads `p`. -/
def skipTo (p : Reader ι α) : Reader ι α := fun input =>
  skipFrom p input.finish input.items input.previousStop none

/-! ## What the combinators read -/

omit [BEq ι] in
@[simp] theorem result?_map (f : α → β) (p : Reader ι α) (input : Input ι) :
    (p.map f input).result? = (p input).result?.map fun r => (f r.1, r.2) := by
  simp only [map]
  cases p input <;> rfl

omit [BEq ι] in
@[simp] theorem result?_mapSpan (f : α → Span → β) (p : Reader ι α) (input : Input ι) :
    (p.mapSpan f input).result? =
      (p input).result?.map fun r => (f r.1 (input.spanTo r.2), r.2) := by
  simp only [mapSpan]
  cases p input <;> rfl

omit [BEq ι] in
@[simp] theorem result?_check (f : α → Span → Except (Span × Complaint) β) (p : Reader ι α)
    (input : Input ι) :
    (p.check f input).result? =
      (p input).result?.bind fun r => (f r.1 (input.spanTo r.2)).toOption.map (·, r.2) := by
  simp only [check]
  cases p input with
  | failed e => rfl
  | ok value rest passed =>
      simp only [Reply.result?_ok, Option.bind_some]
      cases f value (input.spanTo rest) <;> rfl

omit [BEq ι] in
@[simp] theorem result?_labelled (label : String) (p : Reader ι α) (input : Input ι) :
    (p.labelled label input).result? = (p input).result? := by
  simp only [labelled]
  cases p input <;> rfl

@[simp] theorem result?_pair (p : Reader ι α) (q : Reader ι β) (input : Input ι) :
    (p.pair q input).result? =
      (p input).result?.bind fun r => (q r.2).result?.map fun s => ((r.1, s.1), s.2) := by
  simp only [pair]
  cases p input with
  | failed e => rfl
  | ok a middle passed =>
      simp only [Reply.result?_ok, Option.bind_some]
      cases q middle <;> rfl

@[simp] theorem result?_first (p : Reader ι α) (q : Reader ι β) (input : Input ι) :
    (p.first q input).result? =
      (p input).result?.bind fun r => (q r.2).result?.map fun s => (r.1, s.2) := by
  simp [first, Option.map_bind, Function.comp_def]

@[simp] theorem result?_second (p : Reader ι α) (q : Reader ι β) (input : Input ι) :
    (p.second q input).result? = (p input).result?.bind fun r => (q r.2).result? := by
  simp [second, Option.map_bind, Function.comp_def]

@[simp] theorem result?_orElse (p q : Reader ι α) (input : Input ι) :
    (p.orElse q input).result? = (p input).result?.or (q input).result? := by
  simp only [orElse]
  cases p input with
  | ok value rest passed => rfl
  | failed e =>
      simp only [Reply.result?_failed, Option.none_or]
      cases q input <;> rfl

theorem result?_choiceAfter (e : Failure ι) (ps : List (Reader ι α)) (input : Input ι) :
    (choiceAfter e ps input).result? = ps.findSome? fun p => (p input).result? := by
  induction ps generalizing e with
  | nil => rfl
  | cons p ps ih =>
      simp only [choiceAfter, List.findSome?_cons]
      cases p input with
      | ok value rest passed => rfl
      | failed e' => exact ih _

@[simp] theorem result?_choice (p : Reader ι α) (ps : List (Reader ι α)) (input : Input ι) :
    (choice p ps input).result? = (p :: ps).findSome? fun p => (p input).result? := by
  simp only [choice, List.findSome?_cons]
  cases p input with
  | ok value rest passed => rfl
  | failed e => exact result?_choiceAfter e ps input

omit [BEq ι] in
@[simp] theorem result?_optional (p : Reader ι α) (input : Input ι) :
    (p.optional input).result? =
      some (match (p input).result? with
        | some r => (some r.1, r.2)
        | none => (none, input)) := by
  simp only [optional]
  cases p input <;> rfl

end Reader

end TermMachine
