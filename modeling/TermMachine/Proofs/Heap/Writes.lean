import TermMachine.Narration
import TermMachine.Proofs.Heap.Symmetry
import TermMachine.Proofs.Machine.Persistence

/-! # What is written to a heap, write by write

The narration tells of every cell that is written, also of those that a unification writes before it
fails. `Writes` lists what such a record can consist of: cells that are added at the top, and
unbound variables that are bound. A cell that has been written, and is not an unbound variable, is
therefore never written again.
-/

namespace TermMachine

/-- The cell that is written, with its address. -/
def Event.write? : Event → Option (Address × Cell)
  | .writingCell a cell => some (a, cell)
  | _ => none

def writesIn (events : List Event) : List (Address × Cell) := events.filterMap Event.write?

theorem writesIn_append (events events' : List Event) :
    writesIn (events ++ events') = writesIn events ++ writesIn events' := List.filterMap_append

theorem writesIn_quiet {event : Event} (quiet : event.write? = none) (events : List Event) :
    writesIn (event :: events) = writesIn events := List.filterMap_cons_none quiet

namespace Heap

/-- The heap after a cell has been written, which is added if it is the one at the top. -/
def written (h : Heap) (write : Address × Cell) : Heap :=
  if write.1 = h.top then h.added write.2
  else { h with cells := h.cells.setIfInBounds write.1 write.2 }

def replay (h : Heap) (writes : List (Address × Cell)) : Heap := writes.foldl written h

/-- Writing these cells leads from one heap to the other, and none of them overwrites anything but
an unbound variable. -/
inductive Writes : Heap → List (Address × Cell) → Heap → Prop
  | nil (h : Heap) : Writes h [] h
  | added {h h' : Heap} {cell : Cell} {writes : List (Address × Cell)}
      (rest : Writes (h.added cell) writes h') : Writes h ((h.top, cell) :: writes) h'
  | bound {h h' : Heap} {source target : Address} {writes : List (Address × Cell)}
      (binding : h.Binding source target) (rest : Writes (h.assign source target) writes h') :
      Writes h ((source, .ref target) :: writes) h'

variable {h h' h'' : Heap} {writes writes' : List (Address × Cell)}

theorem Writes.trans (first : Writes h writes h') (second : Writes h' writes' h'') :
    Writes h (writes ++ writes') h'' := by
  induction first with
  | nil _ => exact second
  | added _ ih => exact .added (ih second)
  | bound binding _ ih => exact .bound binding (ih second)

theorem written_top (h : Heap) (cell : Cell) : h.written (h.top, cell) = h.added cell := if_pos rfl

theorem Binding.written {source target : Address} (binding : h.Binding source target) :
    h.written (source, .ref target) = h.assign source target :=
  if_neg (Nat.ne_of_lt (lt_top_of_cell binding.unbound))

theorem Writes.replay (w : Writes h writes h') : h.replay writes = h' := by
  induction w with
  | nil _ => rfl
  | added _ ih =>
      rw [Heap.replay, List.foldl_cons, written_top]
      exact ih
  | bound binding _ ih =>
      rw [Heap.replay, List.foldl_cons, binding.written]
      exact ih

theorem Writes.persists (w : Writes h writes h') : h.Persists h' := by
  induction w with
  | nil h => exact .refl h
  | added _ ih => exact (persists_added _ _).trans ih
  | bound binding _ ih => exact binding.persists.trans ih

theorem Writes.isTerm (w : Writes h writes h') {a : Address} (term : h.IsTerm a) :
    h'.IsTerm a := by
  induction w with
  | nil _ => exact term
  | added _ ih => exact ih (term.added _)
  | bound binding _ ih => exact ih (binding.isTerm_iff.mpr term)

/-- What is not an unbound variable is not written again. -/
theorem Writes.kept (w : Writes h writes h') {a : Address} {cell : Cell}
    (hc : h.cells[a]? = some cell) (other : cell ≠ .ref a) : ∀ write ∈ writes, write.1 ≠ a := by
  induction w with
  | nil _ => exact nofun
  | @added h h' new writes _ ih =>
      refine List.forall_mem_cons.mpr ⟨?_, ih (cell_added hc new)⟩
      exact (Nat.ne_of_lt (lt_top_of_cell hc)).symm
  | @bound h h' source target writes binding _ ih =>
      have ne : source ≠ a := by
        rintro rfl
        exact other (Option.some.inj (hc.symm.trans binding.unbound))
      refine List.forall_mem_cons.mpr ⟨ne, ih ?_⟩
      rw [binding.cells_of_ne (Ne.symm ne), hc]

/-- Every single write adds a cell at the top or makes an unbound variable refer to another term,
and where it leaves anything but an unbound variable nothing is written later. -/
theorem Writes.each (w : Writes h writes h') {before after : List (Address × Cell)} {a : Address}
    {cell : Cell} (split : writes = before ++ (a, cell) :: after) :
    (a = (h.replay before).top ∨
      (h.replay before).cells[a]? = some (.ref a) ∧ ∃ target, target ≠ a ∧ cell = .ref target) ∧
    (cell ≠ .ref a → ∀ write ∈ after, write.1 ≠ a) := by
  induction w generalizing before with
  | nil _ => simp at split
  | @added h h' new writes rest ih =>
      rcases before with _ | ⟨first, before⟩
      · obtain ⟨⟨rfl, rfl⟩, rfl⟩ : (h.top = a ∧ new = cell) ∧ writes = after := by simpa using split
        exact ⟨.inl rfl, rest.kept (cells_added_top h new)⟩
      · obtain ⟨rfl, later⟩ := List.cons.inj split
        rw [Heap.replay, List.foldl_cons, written_top]
        exact ih later
  | @bound h h' source target writes binding rest ih =>
      rcases before with _ | ⟨first, before⟩
      · obtain ⟨⟨rfl, rfl⟩, rfl⟩ : (source = a ∧ Cell.ref target = cell) ∧ writes = after := by
          simpa using split
        have kept := rest.kept binding.cells_source
        exact ⟨.inr ⟨binding.unbound, target, binding.distinct, rfl⟩, kept⟩
      · obtain ⟨rfl, later⟩ := List.cons.inj split
        rw [Heap.replay, List.foldl_cons, binding.written]
        exact ih later

/-! ## The operations -/

theorem Writes.single (h : Heap) (cell : Cell) : Writes h [(h.top, cell)] (h.added cell) :=
  .added (.nil _)

theorem writesIn_push {cell : Cell} (ok : h.push cell = .ok h') :
    Writes h (writesIn (Narration.push h cell)) h' := by
  obtain ⟨_, rfl⟩ := push_eq_ok_iff.mp ok
  rw [Narration.push, ok]
  exact .single h cell

theorem writesIn_bind {a b source target : Address}
    (chosen : h.binding a b = .ok (source, target)) (binding : h.Binding source target) :
    Writes h (writesIn (Narration.bind h a b)) (h.assign source target) := by
  rw [Narration.bind, chosen]
  exact .bound binding (.nil _)

def PairOutcome.heap (h : Heap) : PairOutcome → Heap
  | .next h' _ => h'
  | .clash | .error _ => h

theorem writesIn_unifyPair (hr : h.Readable) {a b : Address} (ha : h.IsTerm a) (hb : h.IsTerm b)
    (work : List (Address × Address)) :
    Writes h (writesIn (Narration.unifyPair h a b)) ((h.unifyPair a b work).heap h) := by
  obtain ⟨c, hac⟩ := hr.ends ha
  obtain ⟨d, hbd⟩ := hr.ends hb
  obtain ⟨v, hv, freeC⟩ := hr.exists_inspect hac
  obtain ⟨w, hw, freeD⟩ := hr.exists_inspect hbd
  have bound (ne : c ≠ d) (free : h.cells[c]? = some (.ref c) ∨ h.cells[d]? = some (.ref d)) :
      ∃ h', h.bind c d = .ok h' ∧ Writes h (writesIn (Narration.bind h c d)) h' := by
    obtain ⟨source, target, chosen, binding, _⟩ := binding_spec hac.last_refl hbd.last_refl ne free
    exact ⟨_, by rw [Heap.bind, chosen], writesIn_bind chosen binding⟩
  simp only [Narration.unifyPair, unifyPair, hv, hw]
  by_cases same : c = d
  · rw [if_pos same, if_pos same]
    exact .nil h
  · rw [if_neg same, if_neg same]
    cases v with
    | unbound =>
        obtain ⟨h', done, writes⟩ := bound same (.inl (freeC rfl))
        simp only [done]
        exact writes
    | compound s first =>
        cases w with
        | unbound =>
            obtain ⟨h', done, writes⟩ := bound same (.inr (freeD rfl))
            simp only [done]
            exact writes
        | compound t first' =>
            -- comparing two structures writes nothing
            dsimp only
            by_cases symbols : s = t
            · rw [if_pos symbols, if_pos symbols]
              by_cases shared : first = first'
              · rw [if_pos shared]
                exact .nil h
              · rw [if_neg shared]
                exact .nil h
            · rw [if_neg symbols, if_neg symbols]
              exact .nil h

/-- A unification writes its bindings, however it ends. -/
theorem writesIn_unifyAll {work : List (Address × Address)} (hr : h.Readable)
    (pairs : h.TermPairs work) (fuel : Nat) :
    Writes h (writesIn (Narration.unifyAll fuel h work)) (unifyAll fuel h work).heap := by
  induction fuel generalizing h work with
  | zero => cases work <;> exact .nil h
  | succ fuel ih =>
      cases work with
      | nil => exact .nil h
      | cons pair work =>
          obtain ⟨a, b⟩ := pair
          obtain ⟨ha, hb⟩ := pairs (a, b) List.mem_cons_self
          have first := writesIn_unifyPair hr ha hb work
          have handled := pairs.handled hr
          simp only [Narration.unifyAll, unifyAll, writesIn_append]
          generalize h.unifyPair a b work = outcome at first handled
          cases handled with
          | clash _ => exact first.trans (.nil h)
          | next _ _ readable pairs => exact first.trans (ih readable pairs)

end Heap

end TermMachine
