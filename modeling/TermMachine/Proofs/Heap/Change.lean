import TermMachine.Proofs.Heap.Layout
import Mathlib.Data.Set.Insert

/-! # What changes in a heap

A heap changes in two ways: a cell is added at the top, or an unbound variable is bound. Neither
touches the structures and symbols that are there. A binding makes a variable refer to the end of a
chain, so every chain that ended at the variable ends where the binding leads.
-/

namespace TermMachine

namespace Heap

def added (h : Heap) (cell : Cell) : Heap := { h with cells := h.cells.push cell }

/-- The heap with the two cells that a structure starts with. -/
def opened (h : Heap) (s : Symbol) : Heap := (h.added (.str (h.top + 1))).added (.symbol s)

@[simp] theorem top_added (h : Heap) (cell : Cell) : (h.added cell).top = h.top + 1 := by
  simp [added, top]

theorem cells_added (h : Heap) (cell : Cell) (a : Address) :
    (h.added cell).cells[a]? = if a = h.top then some cell else h.cells[a]? :=
  Array.getElem?_push

@[simp] theorem cells_added_top (h : Heap) (cell : Cell) :
    (h.added cell).cells[h.top]? = some cell := by
  simp [cells_added]

theorem cell_of_added {h : Heap} {cell cell' : Cell} {a : Address}
    (hc : (h.added cell).cells[a]? = some cell') :
    (a = h.top ∧ cell' = cell) ∨ h.cells[a]? = some cell' := by
  rw [cells_added] at hc
  split at hc
  · next same => exact .inl ⟨same, (Option.some.inj hc).symm⟩
  · exact .inr hc

theorem cell_added {h : Heap} {cell : Cell} {a : Address} (hc : h.cells[a]? = some cell)
    (new : Cell) : (h.added new).cells[a]? = some cell := by
  have lt : a ≠ h.top := Nat.ne_of_lt (lt_top_of_cell hc)
  rw [cells_added, if_neg lt, hc]

theorem push_eq_ok_iff {h h' : Heap} {cell : Cell} :
    h.push cell = .ok h' ↔ h.reserve 1 = .ok () ∧ h' = h.added cell := by
  unfold push
  split
  · next ok => simp [ok, added, eq_comm]
  · next ok => simp [ok]

theorem newStructure_eq_ok_iff {h h' : Heap} {s : Symbol} :
    h.newStructure s = .ok h' ↔
      h.reserve 2 = .ok () ∧ h' = h.opened s := by
  unfold newStructure
  split
  · next ok => simp [ok, opened, added, eq_comm]
  · next ok => simp [ok]

theorem pushCopy_of_cell {h : Heap} {a : Address} {cell : Cell} (hc : h.cells[a]? = some cell) :
    h.pushCopy a = h.push cell := by
  simp [pushCopy, load_of_cell hc]

theorem reserve_error {h : Heap} {n : Nat} {e : MemoryError} (failed : h.reserve n = .error e) :
    ∃ capacity, e = .heapOverflow capacity := by
  unfold reserve at failed
  split at failed
  · cases failed
  · next capacity _ =>
      split at failed
      · cases failed
      · cases failed
        exact ⟨capacity, rfl⟩

theorem newStructure_error {h : Heap} {s : Symbol} {e : MemoryError}
    (failed : h.newStructure s = .error e) : ∃ capacity, e = .heapOverflow capacity := by
  unfold newStructure at failed
  split at failed
  · cases failed
  · next e' reserved =>
      cases failed
      exact reserve_error reserved

/-! ## New cells -/

theorem IsTerm.added {h : Heap} {a : Address} (ha : h.IsTerm a) (cell : Cell) :
    (h.added cell).IsTerm a := by
  rcases ha with ⟨r, hr⟩ | ⟨f, hf⟩
  · exact .inl ⟨r, cell_added hr cell⟩
  · exact .inr ⟨f, cell_added hf cell⟩

theorem Filled.added {h : Heap} {p n : Nat} (hp : h.Filled p n) (cell : Cell) :
    (h.added cell).Filled p n := fun i hi => (hp i hi).added cell

theorem EndsAt.added {h : Heap} {a b : Address} (hab : h.EndsAt a b) (cell : Cell) :
    (h.added cell).EndsAt a b := by
  induction hab with
  | unbound hc => exact .unbound (cell_added hc cell)
  | compound hc => exact .compound (cell_added hc cell)
  | follow hc bound _ ih => exact .follow (cell_added hc cell) bound ih

/-- A cell that fits on top of a heap: one that leads to a term, itself included, or to a symbol. -/
def Fits (h : Heap) : Cell → Prop
  | .ref r => r = h.top ∨ h.IsTerm r
  | .str f => ∃ s, h.cells[f]? = some (.symbol s)
  | .symbol _ => True

theorem Linked.added {h : Heap} {cell : Cell} (hl : h.Linked) (fits : h.Fits cell) :
    (h.added cell).Linked where
  str hc := by
    rcases cell_of_added hc with ⟨_, rfl⟩ | old
    · obtain ⟨s, hs⟩ := fits
      exact ⟨s, cell_added hs _⟩
    · obtain ⟨s, hs⟩ := hl.str old
      exact ⟨s, cell_added hs _⟩
  ref hc := by
    rcases cell_of_added hc with ⟨_, rfl⟩ | old
    · rcases fits with rfl | hr
      · exact .inl ⟨_, cells_added_top _ _⟩
      · exact hr.added _
    · exact (hl.ref old).added _
  down hc := by
    rcases cell_of_added hc with ⟨rfl, rfl⟩ | old
    · rcases fits with rfl | hr
      · exact .inl (Nat.le_refl _)
      · exact .inl (Nat.le_of_lt hr.lt_top)
    · rcases hl.down old with le | ⟨f, hf⟩
      · exact .inl le
      · exact .inr ⟨f, cell_added hf _⟩

/-- A copy of a term fits wherever the term lies. -/
theorem Linked.fits {h : Heap} (hl : h.Linked) {a : Address} {cell : Cell}
    (hc : h.cells[a]? = some cell) : h.Fits cell := by
  cases cell with
  | ref r => exact .inr (hl.ref hc)
  | str f => exact hl.str hc
  | symbol s => trivial

@[simp] theorem top_opened (h : Heap) (s : Symbol) : (h.opened s).top = h.top + 2 := by
  simp [opened]

theorem cell_opened {h : Heap} {cell : Cell} {a : Address} (hc : h.cells[a]? = some cell)
    (s : Symbol) : (h.opened s).cells[a]? = some cell := cell_added (cell_added hc _) _

theorem cells_opened_top (h : Heap) (s : Symbol) :
    (h.opened s).cells[h.top]? = some (.str (h.top + 1)) := cell_added (cells_added_top ..) _

theorem cells_opened_symbol (h : Heap) (s : Symbol) :
    (h.opened s).cells[h.top + 1]? = some (.symbol s) := by
  have last := cells_added_top (h.added (.str (h.top + 1))) (.symbol s)
  rwa [top_added] at last

theorem cell_of_opened {h : Heap} {s : Symbol} {cell : Cell} {a : Address}
    (hc : (h.opened s).cells[a]? = some cell) :
    (a = h.top + 1 ∧ cell = .symbol s) ∨ (a = h.top ∧ cell = .str (h.top + 1)) ∨
      h.cells[a]? = some cell := by
  rcases cell_of_added hc with ⟨same, eq⟩ | hc
  · exact .inl ⟨by rw [same, top_added], eq⟩
  · exact .inr (cell_of_added hc)

theorem IsTerm.opened {h : Heap} {a : Address} (ha : h.IsTerm a) (s : Symbol) :
    (h.opened s).IsTerm a := (ha.added _).added _

theorem Filled.opened {h : Heap} {p n : Nat} (hp : h.Filled p n) (s : Symbol) :
    (h.opened s).Filled p n := (hp.added _).added _

theorem Linked.opened {h : Heap} (hl : h.Linked) (s : Symbol) : (h.opened s).Linked where
  str hc := by
    rcases cell_of_opened hc with ⟨_, eq⟩ | ⟨_, eq⟩ | old
    · cases eq
    · cases eq
      exact ⟨s, cells_opened_symbol h s⟩
    · obtain ⟨t, ht⟩ := hl.str old
      exact ⟨t, cell_opened ht s⟩
  ref hc := by
    rcases cell_of_opened hc with ⟨_, eq⟩ | ⟨_, eq⟩ | old
    · cases eq
    · cases eq
    · exact (hl.ref old).opened s
  down hc := by
    rcases cell_of_opened hc with ⟨_, eq⟩ | ⟨_, eq⟩ | old
    · cases eq
    · cases eq
    · rcases hl.down old with le | ⟨f, hf⟩
      · exact .inl le
      · exact .inr ⟨f, cell_opened hf s⟩

/-! ## Bindings -/

/-- The variable at `source` may be bound to the term at `target`: to a structure, or to an older
variable. -/
structure Binding (h : Heap) (source target : Address) : Prop where
  unbound : h.cells[source]? = some (.ref source)
  stays : h.EndsAt target target
  distinct : target ≠ source
  down : target ≤ source ∨ ∃ f, h.cells[target]? = some (.str f)

theorem Binding.cells {h : Heap} {source target : Address} (hb : h.Binding source target)
    (a : Address) :
    (h.assign source target).cells[a]? =
      if a = source then some (.ref target) else h.cells[a]? := by
  have lt : source < h.cells.size := lt_top_of_cell hb.unbound
  rw [assign, Array.getElem?_setIfInBounds]
  by_cases same : a = source
  · simp [same, lt]
  · simp [same, Ne.symm same]

theorem Binding.cells_source {h : Heap} {source target : Address} (hb : h.Binding source target) :
    (h.assign source target).cells[source]? = some (.ref target) := by
  simp [hb.cells]

theorem Binding.cells_of_ne {h : Heap} {source target a : Address} (hb : h.Binding source target)
    (other : a ≠ source) : (h.assign source target).cells[a]? = h.cells[a]? := by
  simp [hb.cells, other]

theorem Binding.str_iff {h : Heap} {source target a f : Address} (hb : h.Binding source target) :
    (h.assign source target).cells[a]? = some (.str f) ↔ h.cells[a]? = some (.str f) := by
  by_cases same : a = source
  · subst same
    simp [hb.cells_source, hb.unbound]
  · rw [hb.cells_of_ne same]

theorem Binding.symbol_iff {h : Heap} {source target a : Address} {s : Symbol}
    (hb : h.Binding source target) :
    (h.assign source target).cells[a]? = some (.symbol s) ↔ h.cells[a]? = some (.symbol s) := by
  by_cases same : a = source
  · subst same
    simp [hb.cells_source, hb.unbound]
  · rw [hb.cells_of_ne same]

theorem Binding.ref_iff {h : Heap} {source target a r : Address} (hb : h.Binding source target) :
    (h.assign source target).cells[a]? = some (.ref r) ↔
      (a = source ∧ r = target) ∨ (a ≠ source ∧ h.cells[a]? = some (.ref r)) := by
  by_cases same : a = source
  · subst same
    simp [hb.cells_source, eq_comm]
  · simp [hb.cells_of_ne same, same]

theorem Binding.isTerm_iff {h : Heap} {source target a : Address} (hb : h.Binding source target) :
    (h.assign source target).IsTerm a ↔ h.IsTerm a := by
  unfold IsTerm
  by_cases same : a = source
  · subst same
    simp [hb.cells_source, hb.unbound]
  · rw [hb.cells_of_ne same]

theorem Binding.filled_iff {h : Heap} {source target : Address} {p n : Nat}
    (hb : h.Binding source target) : (h.assign source target).Filled p n ↔ h.Filled p n := by
  unfold Filled
  simp only [hb.isTerm_iff]

theorem Binding.stays_of_ne {h : Heap} {source target a : Address} (hb : h.Binding source target)
    (stays : h.EndsAt a a) (other : a ≠ source) : (h.assign source target).EndsAt a a := by
  rcases stays.last with ha | ⟨f, hf⟩
  · exact .unbound (by rw [hb.cells_of_ne other, ha])
  · exact .compound (hb.str_iff.mpr hf)

theorem Binding.ne_source {h : Heap} {source target a r : Address} (hb : h.Binding source target)
    (cell : h.cells[a]? = some (.ref r)) (bound : r ≠ a) : a ≠ source := by
  rintro rfl
  simp only [hb.unbound, Option.some.injEq, Cell.ref.injEq] at cell
  exact bound cell.symm

/-- The chains that end elsewhere are left alone. -/
theorem Binding.endsAt_of_ne {h : Heap} {source target a b : Address}
    (hb : h.Binding source target) (hab : h.EndsAt a b) (other : b ≠ source) :
    (h.assign source target).EndsAt a b := by
  induction hab with
  | unbound cell => exact hb.stays_of_ne (.unbound cell) other
  | compound cell => exact hb.stays_of_ne (.compound cell) other
  | follow cell bound _ ih =>
      exact .follow (by rw [hb.cells_of_ne (hb.ne_source cell bound), cell]) bound (ih other)

/-- The chains that ended at the variable are longer now. -/
theorem Binding.endsAt_of_source {h : Heap} {source target a : Address}
    (hb : h.Binding source target) (hab : h.EndsAt a source) :
    (h.assign source target).EndsAt a target := by
  have last : (h.assign source target).EndsAt source target :=
    .follow hb.cells_source hb.distinct (hb.stays_of_ne hb.stays hb.distinct)
  have follows : ∀ {c d : Address}, h.EndsAt c d → d = source →
      (h.assign source target).EndsAt c target := by
    intro c d hcd
    induction hcd with
    | unbound _ =>
        rintro rfl
        exact last
    | compound _ =>
        rintro rfl
        exact last
    | follow cell bound _ ih =>
        intro same
        exact .follow (by rw [hb.cells_of_ne (hb.ne_source cell bound), cell]) bound (ih same)
  exact follows hab rfl

theorem Binding.readable {h : Heap} {source target : Address} (hb : h.Binding source target)
    (hr : h.Readable) : (h.assign source target).Readable where
  str cell := by
    obtain ⟨s, hs, full⟩ := hr.str (hb.str_iff.mp cell)
    exact ⟨s, hb.symbol_iff.mpr hs, hb.filled_iff.mpr full⟩
  ref cell := by
    rcases hb.ref_iff.mp cell with ⟨rfl, rfl⟩ | ⟨_, cell⟩
    · exact hb.isTerm_iff.mpr hb.stays.isTerm
    · exact hb.isTerm_iff.mpr (hr.ref cell)
  ends ha := by
    obtain ⟨b, hab⟩ := hr.ends (hb.isTerm_iff.mp ha)
    by_cases same : b = source
    · subst same
      exact ⟨target, hb.endsAt_of_source hab⟩
    · exact ⟨b, hb.endsAt_of_ne hab same⟩

theorem Binding.linked {h : Heap} {source target : Address} (hb : h.Binding source target)
    (hl : h.Linked) : (h.assign source target).Linked where
  str cell := by
    obtain ⟨s, hs⟩ := hl.str (hb.str_iff.mp cell)
    exact ⟨s, hb.symbol_iff.mpr hs⟩
  ref cell := by
    rcases hb.ref_iff.mp cell with ⟨rfl, rfl⟩ | ⟨_, cell⟩
    · exact hb.isTerm_iff.mpr hb.stays.isTerm
    · exact hb.isTerm_iff.mpr (hl.ref cell)
  down cell := by
    rcases hb.ref_iff.mp cell with ⟨rfl, rfl⟩ | ⟨_, cell⟩
    · rcases hb.down with le | ⟨f, hf⟩
      · exact .inl le
      · exact .inr ⟨f, hb.str_iff.mpr hf⟩
    · rcases hl.down cell with le | ⟨f, hf⟩
      · exact .inl le
      · exact .inr ⟨f, hb.str_iff.mpr hf⟩

theorem isUnbound_of_ref {h : Heap} {a : Address} (hc : h.cells[a]? = some (.ref a)) :
    h.isUnbound a = .ok true := by
  simp [isUnbound, load_of_cell hc]

theorem isUnbound_of_str {h : Heap} {a f : Address} (hc : h.cells[a]? = some (.str f)) :
    h.isUnbound a = .ok false := by
  have other : (Cell.str f == Cell.ref a) = false := beq_eq_false_iff_ne.mpr nofun
  simp [isUnbound, load_of_cell hc, other]

/-- Of two ends of chains that differ, one of them a variable, one may be bound to the other. -/
theorem binding_spec {h : Heap} {a b : Address} (ha : h.EndsAt a a) (hb : h.EndsAt b b) (ne : a ≠ b)
    (free : h.cells[a]? = some (.ref a) ∨ h.cells[b]? = some (.ref b)) :
    ∃ source target, h.binding a b = .ok (source, target) ∧ h.Binding source target ∧
      ((source = a ∧ target = b) ∨ (source = b ∧ target = a)) := by
  rcases ha.last with ca | ⟨f, ca⟩ <;> rcases hb.last with cb | ⟨g, cb⟩
  · have newer : h.binding a b = .ok (max a b, min a b) := by
      simp [binding, isUnbound_of_ref ca, isUnbound_of_ref cb]
    rcases Nat.lt_or_gt_of_ne ne with lt | gt
    · refine ⟨b, a, ?_, ⟨cb, ha, ne, .inl (Nat.le_of_lt lt)⟩, .inr ⟨rfl, rfl⟩⟩
      rw [newer, Nat.max_eq_right (Nat.le_of_lt lt), Nat.min_eq_left (Nat.le_of_lt lt)]
    · refine ⟨a, b, ?_, ⟨ca, hb, ne.symm, .inl (Nat.le_of_lt gt)⟩, .inl ⟨rfl, rfl⟩⟩
      rw [newer, Nat.max_eq_left (Nat.le_of_lt gt), Nat.min_eq_right (Nat.le_of_lt gt)]
  · refine ⟨a, b, ?_, ⟨ca, hb, ne.symm, .inr ⟨g, cb⟩⟩, .inl ⟨rfl, rfl⟩⟩
    simp [binding, isUnbound_of_ref ca, isUnbound_of_str cb]
  · refine ⟨b, a, ?_, ⟨cb, ha, ne, .inr ⟨f, ca⟩⟩, .inr ⟨rfl, rfl⟩⟩
    simp [binding, isUnbound_of_str ca, isUnbound_of_ref cb]
  · simp [ca, cb] at free

/-- Binding works on two ends of chains if they differ and one of them is a variable. -/
theorem bind_spec {h : Heap} {a b : Address} (ha : h.EndsAt a a) (hb : h.EndsAt b b) (ne : a ≠ b)
    (free : h.cells[a]? = some (.ref a) ∨ h.cells[b]? = some (.ref b)) :
    ∃ source target, h.bind a b = .ok (h.assign source target) ∧ h.Binding source target ∧
      ((source = a ∧ target = b) ∨ (source = b ∧ target = a)) := by
  obtain ⟨source, target, chosen, binding, order⟩ := binding_spec ha hb ne free
  exact ⟨source, target, by rw [Heap.bind, chosen], binding, order⟩

/-! ## Growth -/

/-- Cells may have been added, and every term is still a term. -/
structure GrowsTo (h h' : Heap) : Prop where
  top : h.top ≤ h'.top
  isTerm : ∀ {a : Address}, h.IsTerm a → h'.IsTerm a

theorem GrowsTo.refl (h : Heap) : h.GrowsTo h := ⟨Nat.le_refl _, id⟩

theorem GrowsTo.trans {h₁ h₂ h₃ : Heap} (first : h₁.GrowsTo h₂) (second : h₂.GrowsTo h₃) :
    h₁.GrowsTo h₃ :=
  ⟨Nat.le_trans first.top second.top, fun term => second.isTerm (first.isTerm term)⟩

theorem growsTo_added (h : Heap) (cell : Cell) : h.GrowsTo (h.added cell) := by
  refine ⟨?_, fun term => term.added cell⟩
  rw [top_added]
  exact Nat.le_succ _

theorem growsTo_opened (h : Heap) (s : Symbol) : h.GrowsTo (h.opened s) :=
  (h.growsTo_added _).trans (growsTo_added _ _)

theorem Binding.growsTo {h : Heap} {source target : Address} (hb : h.Binding source target) :
    h.GrowsTo (h.assign source target) :=
  ⟨(top_assign ..).ge, hb.isTerm_iff.mpr⟩

/-! ## Roots -/

/-- Every unbound variable is where the references from one of the addresses end. -/
def Rooted (h : Heap) (roots : Set Address) : Prop :=
  ∀ b : Address, h.cells[b]? = some (.ref b) → ∃ a ∈ roots, h.EndsAt a b

theorem Rooted.mono {h : Heap} {roots more : Set Address} (hr : h.Rooted roots)
    (sub : roots ⊆ more) : h.Rooted more := by
  intro b cell
  obtain ⟨a, ha, ends⟩ := hr b cell
  exact ⟨a, sub ha, ends⟩

theorem Rooted.added {h : Heap} {roots : Set Address} {cell : Cell} (hr : h.Rooted roots)
    (new : cell = .ref h.top → h.top ∈ roots) : (h.added cell).Rooted roots := by
  intro b hb
  rcases cell_of_added hb with ⟨rfl, same⟩ | old
  · exact ⟨h.top, new same.symm, .unbound hb⟩
  · obtain ⟨a, ha, ends⟩ := hr b old
    exact ⟨a, ha, ends.added cell⟩

theorem Rooted.opened {h : Heap} {roots : Set Address} (hr : h.Rooted roots) (s : Symbol) :
    (h.opened s).Rooted roots := by
  have half : (h.added (.str (h.top + 1))).Rooted roots := hr.added nofun
  exact half.added nofun

/-- A binding takes one of the unbound variables away and leads no chain away from the others. -/
theorem Binding.rooted {h : Heap} {source target : Address} (hb : h.Binding source target)
    {roots : Set Address} (hr : h.Rooted roots) : (h.assign source target).Rooted roots := by
  intro b cell
  rcases hb.ref_iff.mp cell with ⟨rfl, same⟩ | ⟨other, cell⟩
  · exact absurd same.symm hb.distinct
  · obtain ⟨a, ha, ends⟩ := hr b cell
    exact ⟨a, ha, hb.endsAt_of_ne ends other⟩

end Heap

end TermMachine
