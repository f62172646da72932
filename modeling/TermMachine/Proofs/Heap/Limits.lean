import TermMachine.Machine
import TermMachine.Proofs.Heap.Unification

/-! # Heaps with and without a limit

Whatever does not ask for room does the same on a heap with a limit and on one without. What asks
for room gets it on both, or else would make the heap larger than the limit.
-/

namespace TermMachine

/-- There may be `n` heap cells. -/
def Limits.Holds (limits : Limits) (n : Nat) : Prop :=
  ∀ capacity, limits.heapCapacity = some capacity → n ≤ capacity

/-- The memory error is about what the heap holds, and not about the room in it. -/
def MemoryError.AboutCells : MemoryError → Prop
  | .heapOverflow _ => False
  | .addressOutOfRange _ _ | .notATerm _ | .notAStructure _ => True
  | .noFreeVariable _ _ | .referenceCycle _ => True

namespace Heap

def unlimited (h : Heap) : Heap := { h with capacity := none }

/-- The heap has got the limit on cells, and keeps to it. -/
structure Within (limits : Limits) (h : Heap) : Prop where
  capacity : h.capacity = limits.heapCapacity
  cells : limits.Holds h.top

/-- Adding cells to a heap with limits, and to the same heap without. -/
inductive Adding (limits : Limits) : Except MemoryError Heap → Except MemoryError Heap → Prop
  | added {h : Heap} (within : h.Within limits) : Adding limits (.ok h) (.ok h.unlimited)
  | failed {e : MemoryError} (cells : e.AboutCells) : Adding limits (.error e) (.error e)
  | full {capacity : Nat} {h : Heap} (limit : limits.heapCapacity = some capacity)
      (large : capacity < h.top) : Adding limits (.error (.heapOverflow capacity)) (.ok h)

variable {limits : Limits} {h h' : Heap}

theorem load_error {a : Address} {e : MemoryError} (failed : h.load a = .error e) :
    e.AboutCells := by
  unfold load at failed
  split at failed <;> cases failed
  exact trivial

theorem derefWithin_unlimited (n : Nat) (a : Address) :
    h.unlimited.derefWithin n a = h.derefWithin n a := by
  induction n generalizing a with
  | zero => rfl
  | succ n ih =>
      have same : h.unlimited.load a = h.load a := rfl
      simp only [derefWithin, same, ih]

theorem derefWithin_error {n : Nat} {a : Address} {e : MemoryError}
    (failed : h.derefWithin n a = .error e) : e.AboutCells := by
  induction n generalizing a with
  | zero =>
      cases failed
      exact trivial
  | succ n ih =>
      rw [derefWithin] at failed
      split at failed
      · next missing =>
          cases failed
          exact load_error missing
      · split at failed
        · cases failed
        · exact ih failed
      · cases failed
      · cases failed
        exact trivial

theorem inspect_unlimited (a : Address) : h.unlimited.inspect a = h.inspect a := by
  have same (a : Address) : h.unlimited.load a = h.load a := rfl
  have deref : h.unlimited.deref a = h.deref a := derefWithin_unlimited _ a
  simp only [inspect, same, deref]

theorem inspect_error {a : Address} {e : MemoryError} (failed : h.inspect a = .error e) :
    e.AboutCells := by
  unfold inspect at failed
  split at failed
  · next endless =>
      cases failed
      exact derefWithin_error endless
  · split at failed
    · next missing =>
        cases failed
        exact load_error missing
    · cases failed
    · cases failed
      exact trivial
    · split at failed
      · next missing =>
          cases failed
          exact load_error missing
      · cases failed
      · cases failed
        exact trivial

theorem bind_unlimited (a b : Address) :
    h.unlimited.bind a b = (h.bind a b).map unlimited := by
  have same : h.unlimited.binding a b = h.binding a b := rfl
  unfold bind
  rw [same]
  cases h.binding a b <;> rfl

theorem bind_error {a b : Address} {e : MemoryError} (failed : h.bind a b = .error e) :
    e.AboutCells := by
  have unread {a : Address} {e : MemoryError} (failed : h.isUnbound a = .error e) :
      e.AboutCells := by
    unfold isUnbound at failed
    split at failed <;> cases failed
    next missing => exact load_error missing
  have choice {e : MemoryError} (failed : h.binding a b = .error e) : e.AboutCells := by
    unfold binding at failed
    split at failed
    · next missing =>
        cases failed
        exact unread missing
    · split at failed
      · next missing =>
          cases failed
          exact unread missing
      · split at failed <;> cases failed
        exact trivial
  unfold bind at failed
  split at failed <;> cases failed
  next clash => exact choice clash

theorem Within.bind (within : h.Within limits) {a b : Address} (ok : h.bind a b = .ok h') :
    h'.Within limits := by
  refine ⟨?_, (top_bind ok).symm ▸ within.cells⟩
  unfold Heap.bind at ok
  split at ok <;> cases ok
  exact within.capacity

/-- There is room for more cells, or they are too many. -/
theorem Within.reserve (within : h.Within limits) (n : Nat) :
    (h.reserve n = .ok () ∧ limits.Holds (h.top + n)) ∨
      ∃ capacity, limits.heapCapacity = some capacity ∧
        h.reserve n = .error (.heapOverflow capacity) ∧ capacity < h.top + n := by
  unfold Heap.reserve Limits.Holds
  rw [within.capacity]
  cases limits.heapCapacity with
  | none => exact .inl ⟨rfl, nofun⟩
  | some capacity =>
      dsimp only
      split
      · next room => exact .inl ⟨rfl, by rintro _ ⟨⟩; exact room⟩
      · next full => exact .inr ⟨capacity, rfl, rfl, Nat.lt_of_not_le full⟩

theorem Within.push (within : h.Within limits) (cell : Cell) :
    Adding limits (h.push cell) (h.unlimited.push cell) := by
  rcases within.reserve 1 with ⟨room, cells⟩ | ⟨capacity, limit, full, large⟩
  · simp only [Heap.push, room]
    exact .added (h := h.added cell) ⟨within.capacity, (top_added h cell).symm ▸ cells⟩
  · simp only [Heap.push, full]
    exact .full (h := h.unlimited.added cell) limit ((top_added h.unlimited cell).symm ▸ large)

theorem Within.newStructure (within : h.Within limits) (s : Symbol) :
    Adding limits (h.newStructure s) (h.unlimited.newStructure s) := by
  rcases within.reserve 2 with ⟨room, cells⟩ | ⟨capacity, limit, full, large⟩
  · simp only [Heap.newStructure, room]
    exact .added (h := h.opened s) ⟨within.capacity, (top_opened h s).symm ▸ cells⟩
  · simp only [Heap.newStructure, full]
    exact .full (h := h.unlimited.opened s) limit ((top_opened h.unlimited s).symm ▸ large)

theorem Within.pushCopy (within : h.Within limits) (a : Address) :
    Adding limits (h.pushCopy a) (h.unlimited.pushCopy a) := by
  have same : h.unlimited.load a = h.load a := rfl
  unfold Heap.pushCopy
  rw [same]
  cases loaded : h.load a with
  | ok cell => exact within.push cell
  | error e => exact .failed (load_error loaded)

/-! ## Unification -/

def PairOutcome.unlimited : PairOutcome → PairOutcome
  | .next heap work => .next heap.unlimited work
  | .clash => .clash
  | .error e => .error e

def Unification.unlimited : Unification → Unification
  | .unified heap => .unified heap.unlimited
  | .clash heap => .clash heap.unlimited
  | .error e heap => .error e heap.unlimited
  | .unfinished heap work => .unfinished heap.unlimited work

/-- A pair that is worked off asks for no room. -/
structure WorkedOff (limits : Limits) (outcome free : PairOutcome) : Prop where
  same : free = outcome.unlimited
  within : ∀ h work, outcome = .next h work → h.Within limits
  cells : ∀ e, outcome = .error e → e.AboutCells

theorem WorkedOff.next (within : h.Within limits) (work : List (Address × Address)) :
    WorkedOff limits (.next h work) (.next h.unlimited work) := by
  refine ⟨rfl, ?_, nofun⟩
  rintro _ _ ⟨⟩
  exact within

theorem WorkedOff.error {e : MemoryError} (cells : e.AboutCells) :
    WorkedOff limits (.error e) (.error e) := by
  refine ⟨rfl, nofun, ?_⟩
  rintro _ ⟨⟩
  exact cells

theorem WorkedOff.clash : WorkedOff limits .clash .clash := ⟨rfl, nofun, nofun⟩

theorem Within.bindPair (within : h.Within limits) (a b : Address)
    (work : List (Address × Address)) :
    WorkedOff limits
      (match h.bind a b with
        | .ok h => .next h work
        | .error e => .error e)
      (match h.unlimited.bind a b with
        | .ok h => .next h work
        | .error e => .error e) := by
  rw [bind_unlimited]
  cases bound : h.bind a b with
  | ok h' => exact .next (within.bind bound) work
  | error e => exact .error (bind_error bound)

theorem Within.unifyPair (within : h.Within limits) (a b : Address)
    (work : List (Address × Address)) :
    WorkedOff limits (h.unifyPair a b work) (h.unlimited.unifyPair a b work) := by
  unfold Heap.unifyPair
  rw [inspect_unlimited, inspect_unlimited]
  cases left : h.inspect a with
  | error e => exact .error (inspect_error left)
  | ok found =>
      cases right : h.inspect b with
      | error e => exact .error (inspect_error right)
      | ok found' =>
          obtain ⟨a, v⟩ := found
          obtain ⟨b, w⟩ := found'
          dsimp only
          split
          · exact .next within work
          · cases v with
            | unbound => exact within.bindPair a b work
            | compound s first =>
                cases w with
                | unbound => exact within.bindPair a b work
                | compound t first' =>
                    dsimp only
                    split
                    · split
                      · exact .next within work
                      · exact .next within _
                    · exact .clash

/-- A unification asks for no room. -/
theorem Within.unifyAll (within : h.Within limits) (fuel : Nat)
    (work : List (Address × Address)) :
    Heap.unifyAll fuel h.unlimited work = (Heap.unifyAll fuel h work).unlimited ∧
      (Heap.unifyAll fuel h work).heap.Within limits ∧
      ∀ e h', Heap.unifyAll fuel h work = .error e h' → e.AboutCells := by
  induction fuel generalizing h work with
  | zero =>
      refine ⟨by cases work <;> rfl, by cases work <;> exact within, fun e h' failed => ?_⟩
      cases work <;> cases failed
  | succ fuel ih =>
      cases work with
      | nil =>
          refine ⟨rfl, within, ?_⟩
          rintro _ _ ⟨⟩
      | cons pair work =>
          obtain ⟨a, b⟩ := pair
          have worked := within.unifyPair a b work
          simp only [Heap.unifyAll, worked.same]
          cases outcome : h.unifyPair a b work with
          | next h' work' => exact ih (worked.within h' work' outcome) work'
          | clash =>
              refine ⟨rfl, within, ?_⟩
              rintro _ _ ⟨⟩
          | error e =>
              refine ⟨rfl, within, ?_⟩
              rintro _ _ ⟨⟩
              exact worked.cells e outcome

end Heap

end TermMachine
