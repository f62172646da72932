import TermMachine.Heap

/-!
# The cursor

While the arguments of a structure are being matched or built, a cursor keeps the place of the next
one. Matching reads the arguments where they lie; building adds each of them at the top of the
heap, which is in place only if it is where the structure expects its next argument. After the last
argument the cursor is idle again, and it never becomes active on a structure without arguments.
-/

namespace TermMachine

/-- Whether the arguments of a structure are matched or built. -/
inductive Mode where
  | read
  | write
deriving Repr, DecidableEq

def Mode.text : Mode → String
  | .read => "read"
  | .write => "write"

/-- The visit to the arguments of a structure; `index` of them have been visited. -/
structure Visit where
  mode : Mode
  arguments : Arguments
  index : Nat
deriving Repr, DecidableEq

namespace Visit

def next (v : Visit) : Address := v.arguments.first + v.index

end Visit

inductive CursorError where
  | notActive
  | currentlyActive
  | noMoreTerms (count : Nat)
  | termOutOfPlace (index : Nat) (expected found : Address)
  | memory (e : MemoryError)
deriving Repr, DecidableEq

def CursorError.message : CursorError → String
  | .notActive => "no structure is being read or written"
  | .currentlyActive => "a structure is already being read or written"
  | .noMoreTerms count => "all " ++ toString count ++ " terms of the structure have been visited"
  | .termOutOfPlace index expected found =>
      "term " ++ toString index ++ " was written at " ++ toString found ++ " rather than "
        ++ toString expected
  | .memory e => e.message

/-- A cursor, with the visit it is on unless it is idle. -/
structure Cursor where
  visit? : Option Visit
deriving Repr, DecidableEq

namespace Cursor

def idle : Cursor := ⟨none⟩

/-- The cursor in front of the first argument of a structure; idle if there is none. -/
def along (mode : Mode) (args : Arguments) : Cursor :=
  if args.count = 0 then idle else ⟨some ⟨mode, args, 0⟩⟩

def verifyIdle (c : Cursor) : Except CursorError Unit :=
  match c.visit? with
  | none => .ok ()
  | some _ => .error .currentlyActive

/-- Moves an idle cursor to a structure. -/
def start (c : Cursor) (mode : Mode) (args : Arguments) : Except CursorError Cursor :=
  match c.verifyIdle with
  | .ok () => .ok (along mode args)
  | .error e => .error e

def mode (c : Cursor) : Except CursorError Mode :=
  match c.visit? with
  | some v => .ok v.mode
  | none => .error .notActive

def nextTerm? (c : Cursor) : Option Address := c.visit?.map Visit.next

/-- The visit, which has to have an argument left. -/
def pending (c : Cursor) : Except CursorError Visit :=
  match c.visit? with
  | none => .error .notActive
  | some v =>
      if v.index = v.arguments.count then .error (.noMoreTerms v.arguments.count) else .ok v

/-- The cursor behind the next argument of a visit; idle if that was the last one. -/
def behind (v : Visit) : Cursor :=
  if v.index + 1 = v.arguments.count then idle else ⟨some { v with index := v.index + 1 }⟩

/-- Visits the next argument where it lies. -/
def readNext (c : Cursor) : Except CursorError (Address × Cursor) :=
  match c.pending with
  | .ok v => .ok (v.next, behind v)
  | .error e => .error e

/-- Visits the next argument by adding it with `write`, which puts one cell on top of the heap. A
cell that is out of place stays where it is, but the cursor does not move on. -/
def writeNext (c : Cursor) (h : Heap) (write : Heap → Except MemoryError Heap) :
    Except CursorError (Address × Cursor) × Heap :=
  match c.pending with
  | .error e => (.error e, h)
  | .ok v =>
      match write h with
      | .error e => (.error (.memory e), h)
      | .ok h' =>
          if h.top = v.next then (.ok (h.top, behind v), h')
          else (.error (.termOutOfPlace v.index v.next h.top), h')

def text (c : Cursor) : String :=
  match c.visit? with
  | some v => v.mode.text ++ " mode, S = " ++ toString v.next
  | none => "no active structure"

@[simp] theorem verifyIdle_idle : idle.verifyIdle = .ok () := rfl

theorem verifyIdle_eq_ok_iff (c : Cursor) : c.verifyIdle = .ok () ↔ c = idle := by
  obtain ⟨visit?⟩ := c
  cases visit? <;> simp [verifyIdle, idle]

end Cursor

end TermMachine
