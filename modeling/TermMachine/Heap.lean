/-!
# The heap

Terms that are being unified lie in a heap of cells. A compound term is a pair of cells, one that
marks a structure and one with its symbol, followed by one cell for every argument. A variable is a
cell that refers to itself until it is bound; then it refers to the term it is bound to, or to
another variable. Cells are only ever added at the top and never taken away, so an address stays
valid.

Reading a cell as a term means following references to their end, which `deref` does. It is total:
a chain of references longer than the heap can only be a cycle, and is reported as one.
-/

namespace TermMachine

abbrev Address := Nat

/-- A function symbol: a name and the number of its arguments. -/
structure Symbol where
  name : String
  arity : Nat
deriving Repr, DecidableEq

namespace Symbol

def text (s : Symbol) : String := s.name ++ "/" ++ toString s.arity

end Symbol

inductive Cell where
  /-- A reference to a term. An unbound variable refers to itself. -/
  | ref (target : Address)
  /-- A structure, with the address of its symbol. -/
  | str (target : Address)
  /-- The symbol of a structure; its arguments follow. -/
  | symbol (symbol : Symbol)
deriving Repr, DecidableEq

namespace Cell

def text : Cell → String
  | .ref target => "REF " ++ toString target
  | .str target => "STR " ++ toString target
  | .symbol s => s.text

end Cell

structure Arguments where
  first : Address
  count : Nat
deriving Repr, DecidableEq

namespace Arguments

def addresses (args : Arguments) : List Address := List.range' args.first args.count

end Arguments

/-- What a chain of references ends at. -/
inductive Value where
  | unbound
  | compound (symbol : Symbol) (first : Address)
deriving Repr, DecidableEq

inductive MemoryError where
  | heapOverflow (capacity : Nat)
  | addressOutOfRange (address top : Address)
  | notATerm (address : Address)
  | notAStructure (address : Address)
  | noFreeVariable (a b : Address)
  | referenceCycle (address : Address)
deriving Repr, DecidableEq

def MemoryError.message : MemoryError → String
  | .heapOverflow capacity =>
      "heap overflow: all " ++ toString capacity ++ " cells are in use"
  | .addressOutOfRange address top =>
      "address " ++ toString address ++ " is beyond the top of the heap at " ++ toString top
  | .notATerm address => "the cell at " ++ toString address ++ " is a functor, not a term"
  | .notAStructure address => "the cell at " ++ toString address ++ " is not a structure"
  | .noFreeVariable a b =>
      "cannot bind " ++ toString a ++ " to " ++ toString b ++ ": neither is an unbound variable"
  | .referenceCycle address =>
      "the references at " ++ toString address ++ " lead back to themselves"

structure Heap where
  cells : Array Cell
  capacity : Option Nat
deriving Repr, DecidableEq

namespace Heap

def empty (capacity : Option Nat) : Heap := ⟨#[], capacity⟩

def top (h : Heap) : Address := h.cells.size

/-- Fails unless `count` more cells fit. -/
def reserve (h : Heap) (count : Nat) : Except MemoryError Unit :=
  match h.capacity with
  | none => .ok ()
  | some capacity => if h.top + count ≤ capacity then .ok () else .error (.heapOverflow capacity)

def push (h : Heap) (cell : Cell) : Except MemoryError Heap :=
  match h.reserve 1 with
  | .ok () => .ok { h with cells := h.cells.push cell }
  | .error e => .error e

def load (h : Heap) (a : Address) : Except MemoryError Cell :=
  match h.cells[a]? with
  | some cell => .ok cell
  | none => .error (.addressOutOfRange a h.top)

def newVariable (h : Heap) : Except MemoryError Heap := h.push (.ref h.top)

/-- Adds the two cells that a structure starts with, or neither. Its arguments are to follow. -/
def newStructure (h : Heap) (s : Symbol) : Except MemoryError Heap :=
  match h.reserve 2 with
  | .ok () => .ok { h with cells := (h.cells.push (.str (h.top + 1))).push (.symbol s) }
  | .error e => .error e

def pushCopy (h : Heap) (a : Address) : Except MemoryError Heap :=
  match h.load a with
  | .ok cell => h.push cell
  | .error e => .error e

/-- Follows references for at most `n` cells. -/
def derefWithin (h : Heap) : Nat → Address → Except MemoryError Address
  | 0, a => .error (.referenceCycle a)
  | n + 1, a =>
      match h.load a with
      | .error e => .error e
      | .ok (.ref target) => if target = a then .ok a else h.derefWithin n target
      | .ok (.str _) => .ok a
      | .ok (.symbol _) => .error (.notATerm a)

/-- Follows references to an unbound variable or a structure. -/
def deref (h : Heap) (a : Address) : Except MemoryError Address := h.derefWithin (h.top + 1) a

/-- The term at an address: where its references end, and what is there. -/
def inspect (h : Heap) (a : Address) : Except MemoryError (Address × Value) :=
  match h.deref a with
  | .error e => .error e
  | .ok a =>
      match h.load a with
      | .error e => .error e
      | .ok (.ref _) => .ok (a, .unbound)
      | .ok (.symbol _) => .error (.notATerm a)
      | .ok (.str target) =>
          match h.load target with
          | .error e => .error e
          | .ok (.symbol s) => .ok (a, .compound s (target + 1))
          | .ok _ => .error (.notAStructure a)

def arguments (h : Heap) (a : Address) : Except MemoryError Arguments :=
  match h.inspect a with
  | .error e => .error e
  | .ok (_, .compound s first) => .ok ⟨first, s.arity⟩
  | .ok (a, .unbound) => .error (.notAStructure a)

/-- The cell at an address refers to itself. -/
def isUnbound (h : Heap) (a : Address) : Except MemoryError Bool :=
  match h.load a with
  | .ok cell => .ok (cell == .ref a)
  | .error e => .error e

/-- Which of two terms is the variable to bind, and what to bind it to. Of two variables the newer
is bound to the older, so references between variables lead towards the bottom of the heap. -/
def binding (h : Heap) (a b : Address) : Except MemoryError (Address × Address) :=
  match h.isUnbound a with
  | .error e => .error e
  | .ok aUnbound =>
      match h.isUnbound b with
      | .error e => .error e
      | .ok bUnbound =>
          match aUnbound, bUnbound with
          | true, true => .ok (max a b, min a b)
          | true, false => .ok (a, b)
          | false, true => .ok (b, a)
          | false, false => .error (.noFreeVariable a b)

def assign (h : Heap) (a b : Address) : Heap :=
  { h with cells := h.cells.setIfInBounds a (.ref b) }

/-- Binds one of two terms to the other. One of them has to be an unbound variable. -/
def bind (h : Heap) (a b : Address) : Except MemoryError Heap :=
  match h.binding a b with
  | .ok (source, target) => .ok (h.assign source target)
  | .error e => .error e

def text (h : Heap) : String :=
  String.join (h.cells.toList.mapIdx fun a cell => toString a ++ " " ++ cell.text ++ "\n")

@[simp] theorem top_assign (h : Heap) (a b : Address) : (h.assign a b).top = h.top := by
  simp [assign, top]

theorem top_push {h h' : Heap} {cell : Cell} (ok : h.push cell = .ok h') :
    h'.top = h.top + 1 := by
  unfold push at ok
  split at ok
  · cases ok
    simp [top]
  · cases ok

theorem top_bind {h h' : Heap} {a b : Address} (ok : h.bind a b = .ok h') : h'.top = h.top := by
  unfold bind at ok
  split at ok
  · cases ok
    simp
  · cases ok

end Heap

end TermMachine
