import TermMachine.Proofs.Machine.Execution

/-! # What a machine never takes back

Cells are added, and unbound variables are bound; nothing else ever happens to a heap. So a variable
that has been bound stays bound, and code that only matches leaves its mark: either it has found
everything in the heap, which is as it was, or a variable that was there before is bound now,
`matching_advance`. What such code writes belongs to a structure that a variable was bound to.
-/

namespace TermMachine

namespace Heap

variable {h h' h'' : Heap}

/-- The cells of `h` are cells of `h'` as well, except for unbound variables. -/
structure Persists (h h' : Heap) : Prop where
  top : h.top ≤ h'.top
  cells : ∀ {a : Address} {cell : Cell}, h.cells[a]? = some cell → cell ≠ .ref a →
    h'.cells[a]? = some cell

theorem Persists.refl (h : Heap) : h.Persists h := ⟨Nat.le_refl _, fun hc _ => hc⟩

theorem Persists.trans (first : h.Persists h') (second : h'.Persists h'') : h.Persists h'' where
  top := Nat.le_trans first.top second.top
  cells hc bound := second.cells (first.cells hc bound) bound

theorem persists_added (h : Heap) (cell : Cell) : h.Persists (h.added cell) :=
  ⟨(h.growsTo_added cell).top, fun hc _ => cell_added hc cell⟩

theorem persists_opened (h : Heap) (s : Symbol) : h.Persists (h.opened s) :=
  ⟨(h.growsTo_opened s).top, fun hc _ => cell_opened hc s⟩

theorem Binding.persists {source target : Address} (binding : h.Binding source target) :
    h.Persists (h.assign source target) := by
  refine ⟨(top_assign ..).ge, fun {a cell} hc bound => ?_⟩
  by_cases same : a = source
  · subst same
    obtain rfl : Cell.ref a = cell := by simpa [binding.unbound] using hc
    exact absurd rfl bound
  · rw [binding.cells_of_ne same, hc]

theorem Bindings.persists (bs : Bindings h h') : h.Persists h' :=
  bs.keep (P := h.Persists) (fun binding persists => persists.trans binding.persists) (.refl h)

/-- A cell that was there is an unbound variable only if it was one before. -/
theorem Persists.unbound (persists : h.Persists h') {a : Address} (lt : a < h.top)
    (free : h'.cells[a]? = some (.ref a)) : h.cells[a]? = some (.ref a) := by
  have here : h.cells[a]? = some h.cells[a] := Array.getElem?_eq_getElem lt
  by_cases bound : h.cells[a] = .ref a
  · rw [here, bound]
  · rw [persists.cells here bound, Option.some.injEq] at free
    exact absurd free bound

/-- An unbound variable of `h` is bound in `h'`. -/
def BoundSince (h h' : Heap) : Prop :=
  ∃ (b : Address) (cell : Cell), h.cells[b]? = some (.ref b) ∧ h'.cells[b]? = some cell ∧
    cell ≠ .ref b

theorem BoundSince.persists (bound : h.BoundSince h') (persists : h'.Persists h'') :
    h.BoundSince h'' := by
  obtain ⟨b, cell, free, now, other⟩ := bound
  exact ⟨b, cell, free, persists.cells now other, other⟩

theorem Binding.boundSince {source target : Address} (binding : h.Binding source target) :
    h.BoundSince (h.assign source target) := by
  refine ⟨source, .ref target, binding.unbound, binding.cells_source, fun same => ?_⟩
  exact binding.distinct (Cell.ref.inj same)

theorem Bindings.eq_or_boundSince (bs : Bindings h h') : h' = h ∨ h.BoundSince h' := by
  cases bs with
  | refl _ => exact .inl rfl
  | step binding rest => exact .inr (binding.boundSince.persists rest.persists)

end Heap

/-- The instruction only matches. It builds nothing but what a variable is bound to. -/
def Instruction.Matches : Instruction → Prop
  | .getStructure _ _ | .unifyVariable _ | .unifyValue _ => True
  | .putStructure _ _ | .setVariable _ | .setValue _ => False

namespace Machine

variable {m m' : Machine} {fuel : Nat}

/-! ## One instruction -/

theorem Stored.persists {x : Register} {a : Address} {effect : Effect}
    (stored : m.Stored x a effect) : m.heap.Persists effect.settled.heap := by
  cases stored with
  | done _ => exact .refl _
  | missing _ => exact .refl _

theorem WriteRefused.persists {cell : Cell} {e : CursorError} (refused : m.WriteRefused cell e m') :
    m.heap.Persists m'.heap := by
  cases refused with
  | idle _ => exact .refl _
  | full _ _ => exact .refl _
  | stray _ _ _ => exact m.heap.persists_added cell

theorem NewVariable.persists {x : Register} {effect : Effect} (added : m.NewVariable x effect) :
    m.heap.Persists effect.settled.heap := by
  cases added with
  | refused refused => exact refused.persists
  | added _ stored => exact (m.heap.persists_added _).trans stored.persists

theorem Copied.persists {x : Register} {effect : Effect} (copied : m.Copied x effect) :
    m.heap.Persists effect.settled.heap := by
  cases copied with
  | unread _ => exact .refl _
  | refused _ _ refused => exact refused.persists
  | added _ _ _ => exact m.heap.persists_added _

/-- A unification only makes bindings, however it ends. -/
theorem WellFormed.unified_bindings (wf : m.WellFormed) (alive : m.status ≠ .failed)
    {x : Register} {v : Visit} {a : Address} {effect : Effect} (hv : m.cursor.visit? = some v)
    (read : v.mode = .read) (held : m.registers.held x = some a)
    (unified : m.Unified fuel v a effect) : Heap.Bindings m.heap effect.settled.heap := by
  have bs := wf.unify_bindings alive fuel hv read held
  cases unified with
  | done ended => rwa [ended] at bs
  | failed ended => rwa [ended] at bs
  | unfinished ended => rwa [ended] at bs

/-- No instruction takes a cell back or sets a variable free. -/
theorem Transition.persists {i : Instruction} {effect : Effect} (t : Transition fuel m i effect)
    (wf : m.WellFormed) (alive : m.status ≠ .failed) :
    m.heap.Persists effect.settled.heap := by
  cases t with
  | putRefused _ => exact .refl _
  | put _ _ stored => exact (m.heap.persists_opened _).trans stored.persists
  | setVariable added => exact added.persists
  | setValue copied => exact copied.persists
  | getUnread _ => exact .refl _
  | getRefused _ _ _ => exact .refl _
  | getWrite _ _ _ _ binding => exact (m.heap.persists_opened _).trans binding.persists
  | getActive _ _ _ => exact .refl _
  | getRead _ _ _ => exact .refl _
  | getFailed _ _ _ => exact .refl _
  | unifyVariableIdle _ => exact .refl _
  | unifyVariableWrite _ _ added => exact added.persists
  | unifyVariableRead _ _ stored => exact stored.persists
  | unifyValueIdle _ => exact .refl _
  | unifyValueWrite _ _ copied => exact copied.persists
  | unifyValueUnread _ _ _ => exact .refl _
  | unifyValueRead hv read held unified =>
      exact (wf.unified_bindings alive hv read held unified).persists

/-! ## Matching -/

/-- The heap is `h` and nothing is written to it, or a variable of `h` has been bound. -/
def Matching (h : Heap) (m : Machine) : Prop :=
  (m.heap = h ∧ ∀ v, m.cursor.visit? = some v → v.mode = .read) ∨ h.BoundSince m.heap

theorem matching_of_idle (idle : m.cursor = .idle) : m.Matching m.heap := by
  refine .inl ⟨rfl, fun v hv => ?_⟩
  rw [idle] at hv
  cases hv

/-- An instruction that matches reads on, or it binds a variable. -/
theorem Transition.matching {h : Heap} {i : Instruction} (t : Transition fuel m i (.done m'))
    (wf : m.WellFormed) (alive : m.status ≠ .failed) (only : i.Matches) (before : m.Matching h) :
    m'.Matching h := by
  rcases before with ⟨rfl, reading⟩ | bound
  · -- nothing is written as long as nothing has been bound
    have not_writing {v : Visit} (hv : m.cursor.visit? = some v) (write : v.mode = .write) :
        False := nomatch (reading v hv).symm.trans write
    cases t with
    | put _ _ _ => cases only
    | setVariable _ => cases only
    | setValue _ => cases only
    | @getWrite s _ _ b _ unbound _ _ binding =>
        refine .inr ⟨b, .ref m.heap.top, unbound.2, binding.cells_source, fun same => ?_⟩
        exact binding.distinct (Cell.ref.inj same)
    | getRead _ _ _ =>
        refine .inl ⟨rfl, fun v hv => ?_⟩
        rw [(Cursor.visit_along hv).2]
    | unifyVariableWrite hv write _ => exact absurd write (not_writing hv)
    | unifyVariableRead hv read stored =>
        cases stored with
        | done _ =>
            refine .inl ⟨rfl, fun w hw => ?_⟩
            rw [(Cursor.visit_behind hw).2]
            exact read
    | unifyValueWrite hv write _ => exact absurd write (not_writing hv)
    | unifyValueRead hv read held unified =>
        have bs := wf.unified_bindings alive hv read held unified
        cases unified with
        | done ended =>
            rcases bs.eq_or_boundSince with same | bound
            · refine .inl ⟨same, fun w hw => ?_⟩
              rw [(Cursor.visit_behind hw).2]
              exact read
            · exact .inr bound
  · exact .inr (bound.persists (t.persists wf alive))

/-! ## All instructions -/

theorem persists_advance {is : List Instruction} (wf : m.WellFormed) (alive : m.status ≠ .failed)
    (done : m.advance fuel is = .done m') : m.heap.Persists m'.heap := by
  refine advance_keeps (P := fun m' => m.heap.Persists m'.heap) (fun _ persists => persists) ?_ wf
    alive (.refl m.heap) done
  exact fun _ _ _ _ wf alive t persists => persists.trans (t.persists wf alive)

theorem matching_advance {h : Heap} {is : List Instruction} (only : ∀ i ∈ is, i.Matches)
    (wf : m.WellFormed) (alive : m.status ≠ .failed) (before : m.Matching h)
    (done : m.advance fuel is = .done m') : m'.Matching h := by
  refine advance_keeps (P := Matching h) (fun _ matching => matching) ?_ wf alive before done
  exact fun i mem _ _ wf alive t matching => t.matching wf alive (only i mem) matching

end Machine

end TermMachine
