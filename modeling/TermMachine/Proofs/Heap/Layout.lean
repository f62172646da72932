import TermMachine.Heap.Unify
import Mathlib.Data.List.Nodup
import Mathlib.Data.List.Perm.Subperm

/-! # The layout of a heap

What the cells of a heap promise about each other. References lead to terms and end somewhere,
structures lead to symbols, and a symbol has its arguments behind it. The chain of references from a
cell is a relation here, `EndsAt`, so that statements about terms need not mention how far `deref`
is allowed to go; `deref_eq_ok_iff` says that it is allowed to go far enough. Whether every term of
a heap can be read is decided by looking them all up, `readable_iff`.
-/

namespace TermMachine

namespace Heap

/-- The cell at an address is a term and not the symbol of one. -/
def IsTerm (h : Heap) (a : Address) : Prop :=
  (∃ r, h.cells[a]? = some (.ref r)) ∨ ∃ f, h.cells[a]? = some (.str f)

/-- Behind the symbol at `p` there are `n` terms. -/
def Filled (h : Heap) (p n : Nat) : Prop := ∀ i < n, h.IsTerm (p + 1 + i)

/-- Following references from one address ends at another one. -/
inductive EndsAt (h : Heap) : Address → Address → Prop
  | unbound {a : Address} (cell : h.cells[a]? = some (.ref a)) : EndsAt h a a
  | compound {a f : Address} (cell : h.cells[a]? = some (.str f)) : EndsAt h a a
  | follow {a r b : Address} (cell : h.cells[a]? = some (.ref r)) (bound : r ≠ a)
      (rest : EndsAt h r b) : EndsAt h a b

/-- A heap without a structure that is still being built. Structures may contain themselves. -/
structure WellFormed (h : Heap) : Prop where
  str : ∀ {a f : Address}, h.cells[a]? = some (.str f) → ∃ s, h.cells[f]? = some (.symbol s)
  ref : ∀ {a r : Address}, h.cells[a]? = some (.ref r) → h.IsTerm r
  arguments : ∀ {p : Address} {s : Symbol}, h.cells[p]? = some (.symbol s) → h.Filled p s.arity
  ends : ∀ {a : Address}, h.IsTerm a → ∃ b, h.EndsAt a b

/-- A heap in which every term can be read: a structure leads to a symbol with all its arguments
behind it. A symbol that no structure leads to need not have arguments. -/
structure Readable (h : Heap) : Prop where
  str : ∀ {a f : Address}, h.cells[a]? = some (.str f) →
    ∃ s, h.cells[f]? = some (.symbol s) ∧ h.Filled f s.arity
  ref : ∀ {a r : Address}, h.cells[a]? = some (.ref r) → h.IsTerm r
  ends : ∀ {a : Address}, h.IsTerm a → ∃ b, h.EndsAt a b

theorem WellFormed.readable {h : Heap} (wf : h.WellFormed) : h.Readable where
  str cell := (wf.str cell).imp fun _ symbol => ⟨symbol, wf.arguments symbol⟩
  ref := wf.ref
  ends := wf.ends

theorem lt_top_of_cell {h : Heap} {a : Address} {cell : Cell} (hc : h.cells[a]? = some cell) :
    a < h.top := (Array.getElem?_eq_some_iff.mp hc).choose

theorem IsTerm.lt_top {h : Heap} {a : Address} (ha : h.IsTerm a) : a < h.top := by
  rcases ha with ⟨r, hr⟩ | ⟨f, hf⟩
  · exact lt_top_of_cell hr
  · exact lt_top_of_cell hf

theorem IsTerm.not_symbol {h : Heap} {a : Address} {s : Symbol} (ha : h.IsTerm a) :
    h.cells[a]? ≠ some (.symbol s) := by
  rcases ha with ⟨r, hr⟩ | ⟨f, hf⟩ <;> simp_all

theorem load_eq_ok_iff {h : Heap} {a : Address} {cell : Cell} :
    h.load a = .ok cell ↔ h.cells[a]? = some cell := by
  unfold load
  split <;> simp_all

theorem load_of_cell {h : Heap} {a : Address} {cell : Cell} (hc : h.cells[a]? = some cell) :
    h.load a = .ok cell := load_eq_ok_iff.mpr hc

/-! ## Chains of references -/

theorem EndsAt.isTerm {h : Heap} {a b : Address} (hab : h.EndsAt a b) : h.IsTerm a := by
  cases hab with
  | unbound cell => exact .inl ⟨_, cell⟩
  | compound cell => exact .inr ⟨_, cell⟩
  | follow cell _ _ => exact .inl ⟨_, cell⟩

/-- A chain ends where it stays: at an unbound variable or a structure. -/
theorem EndsAt.last {h : Heap} {a b : Address} (hab : h.EndsAt a b) :
    h.cells[b]? = some (.ref b) ∨ ∃ f, h.cells[b]? = some (.str f) := by
  induction hab with
  | unbound cell => exact .inl cell
  | compound cell => exact .inr ⟨_, cell⟩
  | follow _ _ _ ih => exact ih

theorem EndsAt.last_refl {h : Heap} {a b : Address} (hab : h.EndsAt a b) : h.EndsAt b b := by
  rcases hab.last with hb | ⟨f, hf⟩
  · exact .unbound hb
  · exact .compound hf

theorem EndsAt.unique {h : Heap} {a b c : Address} (hab : h.EndsAt a b) (hac : h.EndsAt a c) :
    b = c := by
  induction hab with
  | unbound cell =>
      cases hac with
      | unbound _ => rfl
      | compound cell' => simp [cell] at cell'
      | follow cell' bound _ =>
          simp only [cell, Option.some.injEq, Cell.ref.injEq] at cell'
          exact absurd cell'.symm bound
  | compound cell =>
      cases hac with
      | unbound cell' => simp [cell] at cell'
      | compound _ => rfl
      | follow cell' _ _ => simp [cell] at cell'
  | follow cell bound _ ih =>
      cases hac with
      | unbound cell' =>
          simp only [cell, Option.some.injEq, Cell.ref.injEq] at cell'
          exact absurd cell' bound
      | compound cell' => simp [cell] at cell'
      | follow cell' _ rest' =>
          simp only [cell, Option.some.injEq, Cell.ref.injEq] at cell'
          subst cell'
          exact ih rest'

theorem endsAt_of_derefWithin {h : Heap} {n : Nat} {a b : Address}
    (ok : h.derefWithin n a = .ok b) : h.EndsAt a b := by
  induction n generalizing a with
  | zero => simp [derefWithin] at ok
  | succ n ih =>
      unfold derefWithin at ok
      split at ok
      · cases ok
      · next r hr =>
          have cell := load_eq_ok_iff.mp hr
          split at ok
          · next same =>
              cases ok
              exact .unbound (same ▸ cell)
          · next bound => exact .follow cell bound (ih ok)
      · next f hf =>
          cases ok
          exact .compound (load_eq_ok_iff.mp hf)
      · cases ok

/-- The addresses that a chain visits, its end included. -/
inductive Chain (h : Heap) : Address → Address → List Address → Prop
  | last {b : Address} (stays : h.EndsAt b b) : Chain h b b [b]
  | follow {a r b : Address} {visited : List Address} (cell : h.cells[a]? = some (.ref r))
      (bound : r ≠ a) (rest : Chain h r b visited) : Chain h a b (a :: visited)

theorem EndsAt.chain {h : Heap} {a b : Address} (hab : h.EndsAt a b) :
    ∃ visited, h.Chain a b visited := by
  induction hab with
  | unbound cell => exact ⟨_, .last (.unbound cell)⟩
  | compound cell => exact ⟨_, .last (.compound cell)⟩
  | follow cell bound _ ih =>
      obtain ⟨visited, hv⟩ := ih
      exact ⟨_, .follow cell bound hv⟩

theorem Chain.endsAt {h : Heap} {a b : Address} {visited : List Address}
    (hc : h.Chain a b visited) : h.EndsAt a b := by
  induction hc with
  | last stays => exact stays
  | follow cell bound _ ih => exact .follow cell bound ih

/-- What a chain visits has its own chain, which is no longer. -/
theorem Chain.of_mem {h : Heap} {a b c : Address} {visited : List Address}
    (hc : h.Chain a b visited) (mem : c ∈ visited) :
    ∃ later, h.Chain c b later ∧ later.length ≤ visited.length := by
  induction hc with
  | last stays =>
      simp only [List.mem_singleton] at mem
      subst mem
      exact ⟨_, .last stays, Nat.le_refl _⟩
  | follow cell bound rest ih =>
      rcases List.mem_cons.mp mem with rfl | mem
      · exact ⟨_, .follow cell bound rest, Nat.le_refl _⟩
      · obtain ⟨later, hl, hle⟩ := ih mem
        exact ⟨later, hl, by simp only [List.length_cons]; omega⟩

/-- A bound reference does not end where it stands. -/
theorem not_endsAt_self {h : Heap} {a r : Address} (cell : h.cells[a]? = some (.ref r))
    (bound : r ≠ a) : ¬h.EndsAt a a := by
  intro stays
  rcases stays.last with ha | ⟨f, hf⟩
  · simp only [cell, Option.some.injEq, Cell.ref.injEq] at ha
    exact bound ha
  · simp [cell] at hf

theorem Chain.unique {h : Heap} {a b : Address} {xs ys : List Address}
    (hx : h.Chain a b xs) (hy : h.Chain a b ys) : xs = ys := by
  induction hx generalizing ys with
  | last stays =>
      cases hy with
      | last _ => rfl
      | follow cell bound _ => exact absurd stays (not_endsAt_self cell bound)
  | follow cell bound rest ih =>
      cases hy with
      | last stays => exact absurd stays (not_endsAt_self cell bound)
      | follow cell' _ rest' =>
          simp only [cell, Option.some.injEq, Cell.ref.injEq] at cell'
          subst cell'
          rw [ih rest']

/-- No chain visits an address twice, since from there it would go on forever. -/
theorem Chain.nodup {h : Heap} {a b : Address} {visited : List Address}
    (hc : h.Chain a b visited) : visited.Nodup := by
  induction hc with
  | last _ => simp
  | follow cell bound rest ih =>
      refine List.nodup_cons.mpr ⟨fun mem => ?_, ih⟩
      obtain ⟨later, hl, hle⟩ := rest.of_mem mem
      have same := hl.unique (.follow cell bound rest)
      rw [same, List.length_cons] at hle
      omega

theorem Chain.lt_top {h : Heap} {a b : Address} {visited : List Address}
    (hc : h.Chain a b visited) : ∀ c ∈ visited, c < h.top := by
  intro c mem
  obtain ⟨later, hl, _⟩ := hc.of_mem mem
  exact hl.endsAt.isTerm.lt_top

theorem Chain.length_le {h : Heap} {a b : Address} {visited : List Address}
    (hc : h.Chain a b visited) : visited.length ≤ h.top := by
  -- the pigeonhole principle
  have sub : visited ⊆ List.range h.top := fun c mem => List.mem_range.mpr (hc.lt_top c mem)
  have le := (hc.nodup.subperm sub).length_le
  simpa using le

theorem derefWithin_last {h : Heap} {b : Address} (stays : h.EndsAt b b) (n : Nat) :
    h.derefWithin (n + 1) b = .ok b := by
  rcases stays.last with hb | ⟨f, hf⟩
  · simp [derefWithin, load_of_cell hb]
  · simp [derefWithin, load_of_cell hf]

theorem Chain.derefWithin {h : Heap} {a b : Address} {visited : List Address}
    (hc : h.Chain a b visited) (extra : Nat) :
    h.derefWithin (visited.length + extra) a = .ok b := by
  induction hc with
  | last stays =>
      rw [List.length_singleton, Nat.add_comm]
      exact derefWithin_last stays extra
  | follow cell bound _ ih =>
      rw [List.length_cons, Nat.add_right_comm]
      simp only [Heap.derefWithin, load_of_cell cell, if_neg bound]
      exact ih

theorem deref_eq_ok_iff {h : Heap} {a b : Address} : h.deref a = .ok b ↔ h.EndsAt a b := by
  refine ⟨endsAt_of_derefWithin, fun hab => ?_⟩
  obtain ⟨visited, hc⟩ := hab.chain
  have le : visited.length ≤ h.top + 1 := Nat.le_succ_of_le hc.length_le
  have enough := Nat.add_sub_of_le le
  rw [deref, ← enough]
  exact hc.derefWithin _

/-! ## The term at an address -/

/-- The term at `a` is the unbound variable at `b`. -/
def Unbound (h : Heap) (a b : Address) : Prop :=
  h.EndsAt a b ∧ h.cells[b]? = some (.ref b)

/-- The term at `a` is a structure with the symbol `s`, which lies at `p`. -/
def Compound (h : Heap) (a : Address) (s : Symbol) (p : Address) : Prop :=
  ∃ b, h.EndsAt a b ∧ h.cells[b]? = some (.str p) ∧ h.cells[p]? = some (.symbol s)

theorem inspect_eq_unbound_iff {h : Heap} {a b : Address} :
    h.inspect a = .ok (b, .unbound) ↔ h.Unbound a b := by
  constructor
  · intro ok
    unfold inspect at ok
    split at ok
    · cases ok
    · next c hc =>
        have hac := deref_eq_ok_iff.mp hc
        split at ok
        · cases ok
        · next r hr =>
            cases ok
            rcases hac.last with hb | ⟨f, hf⟩
            · exact ⟨hac, hb⟩
            · simp [load_of_cell hf] at hr
        · cases ok
        · split at ok <;> cases ok
  · rintro ⟨hab, cell⟩
    simp [inspect, deref_eq_ok_iff.mpr hab, load_of_cell cell]

theorem inspect_eq_compound_iff {h : Heap} {a b first : Address} {s : Symbol} :
    h.inspect a = .ok (b, .compound s first) ↔
      h.EndsAt a b ∧ ∃ f, h.cells[b]? = some (.str f) ∧ h.cells[f]? = some (.symbol s) ∧
        first = f + 1 := by
  constructor
  · intro ok
    unfold inspect at ok
    split at ok
    · cases ok
    · next c hc =>
        split at ok
        · cases ok
        · cases ok
        · cases ok
        · next f hf =>
            split at ok
            · cases ok
            · next t ht =>
                cases ok
                exact ⟨deref_eq_ok_iff.mp hc, f, load_eq_ok_iff.mp hf, load_eq_ok_iff.mp ht, rfl⟩
            · cases ok
  · rintro ⟨hab, f, cell, symbol, rfl⟩
    simp [inspect, deref_eq_ok_iff.mpr hab, load_of_cell cell, load_of_cell symbol]

theorem Compound.inspect {h : Heap} {a p : Address} {s : Symbol} (hc : h.Compound a s p) :
    ∃ b, h.EndsAt a b ∧ (∃ f, h.cells[b]? = some (.str f)) ∧
      h.inspect a = .ok (b, .compound s (p + 1)) := by
  obtain ⟨b, hab, cell, symbol⟩ := hc
  exact ⟨b, hab, ⟨p, cell⟩, inspect_eq_compound_iff.mpr ⟨hab, p, cell, symbol, rfl⟩⟩

/-- All cells for one structure have its symbol. -/
theorem Compound.symbol_eq {h : Heap} {a b p : Address} {s t : Symbol} (ha : h.Compound a s p)
    (hb : h.Compound b t p) : s = t := by
  obtain ⟨_, _, _, symbol⟩ := ha
  obtain ⟨_, _, _, symbol'⟩ := hb
  rw [symbol] at symbol'
  exact Cell.symbol.inj (Option.some.inj symbol')

/-- Every term is an unbound variable or a structure. -/
theorem Readable.value {h : Heap} (hr : h.Readable) {a : Address} (ha : h.IsTerm a) :
    (∃ b, h.Unbound a b) ∨ ∃ s p, h.Compound a s p := by
  obtain ⟨b, hab⟩ := hr.ends ha
  rcases hab.last with hb | ⟨f, hf⟩
  · exact .inl ⟨b, hab, hb⟩
  · obtain ⟨s, hs, _⟩ := hr.str hf
    exact .inr ⟨s, f, b, hab, hf, hs⟩

theorem Readable.argument {h : Heap} (hr : h.Readable) {a p : Address} {s : Symbol}
    (hc : h.Compound a s p) {i : Nat} (hi : i < s.arity) : h.IsTerm (p + 1 + i) := by
  obtain ⟨b, _, cell, symbol⟩ := hc
  obtain ⟨t, symbol', full⟩ := hr.str cell
  rw [symbol] at symbol'
  obtain rfl : s = t := Cell.symbol.inj (Option.some.inj symbol')
  exact full i hi

theorem WellFormed.value {h : Heap} (wf : h.WellFormed) {a : Address} (ha : h.IsTerm a) :
    (∃ b, h.Unbound a b) ∨ ∃ s p, h.Compound a s p := wf.readable.value ha

theorem WellFormed.argument {h : Heap} (wf : h.WellFormed) {a p : Address} {s : Symbol}
    (hc : h.Compound a s p) {i : Nat} (hi : i < s.arity) : h.IsTerm (p + 1 + i) :=
  wf.readable.argument hc hi

/-! ## Checking a heap -/

instance (h : Heap) (a : Address) : Decidable (h.IsTerm a) :=
  match cell : h.cells[a]? with
  | some (.ref r) => .isTrue (.inl ⟨r, cell⟩)
  | some (.str f) => .isTrue (.inr ⟨f, cell⟩)
  | some (.symbol _) => .isFalse fun term => term.not_symbol cell
  | none => .isFalse fun term => by simp [IsTerm, cell] at term

/-- Looking up the term at `a` finds a variable or a structure with all its arguments. -/
def canRead (h : Heap) (a : Address) : Bool :=
  match h.inspect a with
  | .ok (_, .unbound) => true
  | .ok (_, .compound s first) => ∀ i < s.arity, h.IsTerm (first + i)
  | .error _ => false

theorem canRead_iff {h : Heap} {a : Address} :
    h.canRead a ↔ (∃ b, h.Unbound a b) ∨ ∃ s p, h.Compound a s p ∧ h.Filled p s.arity := by
  constructor
  · intro read
    unfold canRead at read
    split at read
    · next b inspected => exact .inl ⟨b, inspect_eq_unbound_iff.mp inspected⟩
    · next b s first inspected =>
        obtain ⟨hab, p, cell, symbol, rfl⟩ := inspect_eq_compound_iff.mp inspected
        exact .inr ⟨s, p, ⟨b, hab, cell, symbol⟩, by simpa [Filled] using read⟩
    · cases read
  · rintro (⟨b, hb⟩ | ⟨s, p, hp, full⟩)
    · simp only [canRead, inspect_eq_unbound_iff.mpr hb]
    · obtain ⟨b, _, _, inspected⟩ := hp.inspect
      simpa [canRead, inspected, Filled] using full

/-- A heap is readable exactly if every term in it can be read. -/
theorem readable_iff {h : Heap} : h.Readable ↔ ∀ a < h.top, h.IsTerm a → h.canRead a := by
  constructor
  · refine fun hr a _ term => canRead_iff.mpr ((hr.value term).imp_right ?_)
    rintro ⟨s, p, hp⟩
    exact ⟨s, p, hp, fun i hi => hr.argument hp hi⟩
  · intro all
    have read {a : Address} (term : h.IsTerm a) := canRead_iff.mp (all a term.lt_top term)
    have ends {a : Address} (term : h.IsTerm a) : ∃ b, h.EndsAt a b := by
      rcases read term with ⟨b, hb⟩ | ⟨s, p, ⟨b, hab, _⟩, _⟩
      · exact ⟨b, hb.1⟩
      · exact ⟨b, hab⟩
    refine ⟨fun {a f} cell => ?_, fun {a r} cell => ?_, ends⟩
    · rcases read (.inr ⟨f, cell⟩) with ⟨b, hab, last⟩ | ⟨s, p, ⟨b, hab, last, symbol⟩, full⟩ <;>
        obtain rfl := (EndsAt.compound cell).unique hab
      · simp [cell] at last
      · obtain rfl : f = p := by simpa [cell] using last
        exact ⟨s, symbol, full⟩
    · obtain ⟨b, hab⟩ := ends (.inl ⟨r, cell⟩)
      cases hab with
      | unbound last =>
          obtain rfl : r = a := by simpa [cell] using last
          exact .inl ⟨_, last⟩
      | compound last => simp [cell] at last
      | follow next _ rest =>
          obtain rfl := Cell.ref.inj (Option.some.inj (cell.symm.trans next))
          exact rest.isTerm

instance (h : Heap) : Decidable h.Readable := decidable_of_iff _ readable_iff.symm

/-! ## References that lead down -/

/-- References lead to terms, structures to symbols. Every reference leads down the heap or to a
structure; structures alone may lead up. -/
structure Linked (h : Heap) : Prop where
  str : ∀ {a f : Address}, h.cells[a]? = some (.str f) → ∃ s, h.cells[f]? = some (.symbol s)
  ref : ∀ {a r : Address}, h.cells[a]? = some (.ref r) → h.IsTerm r
  down : ∀ {a r : Address}, h.cells[a]? = some (.ref r) →
    r ≤ a ∨ ∃ f, h.cells[r]? = some (.str f)

theorem Linked.ends {h : Heap} (hl : h.Linked) {a : Address} (ha : h.IsTerm a) :
    ∃ b, h.EndsAt a b := by
  induction a using Nat.strongRecOn with
  | ind a ih =>
      rcases ha with ⟨r, hr⟩ | ⟨f, hf⟩
      · by_cases bound : r = a
        · exact ⟨a, .unbound (bound ▸ hr)⟩
        · rcases hl.down hr with le | ⟨f, hf⟩
          · obtain ⟨b, hb⟩ := ih r (Nat.lt_of_le_of_ne le bound) (hl.ref hr)
            exact ⟨b, .follow hr bound hb⟩
          · exact ⟨r, .follow hr bound (.compound hf)⟩
      · exact ⟨a, .compound hf⟩

/-- An unbound variable lies below everything that refers to it. -/
theorem Linked.unbound_le {h : Heap} (hl : h.Linked) {a b : Address} (hu : h.Unbound a b) :
    b ≤ a := by
  obtain ⟨hab, last⟩ := hu
  induction hab with
  | unbound _ => exact Nat.le_refl _
  | compound _ => exact Nat.le_refl _
  | follow cell _ rest ih =>
      rcases hl.down cell with le | ⟨f, hf⟩
      · exact Nat.le_trans (ih last) le
      · obtain rfl := rest.unique (.compound hf)
        simp [hf] at last

theorem Linked.wellFormed {h : Heap} (hl : h.Linked)
    (full : ∀ {p : Address} {s : Symbol}, h.cells[p]? = some (.symbol s) → h.Filled p s.arity) :
    h.WellFormed := ⟨hl.str, hl.ref, full, hl.ends⟩

end Heap

end TermMachine
