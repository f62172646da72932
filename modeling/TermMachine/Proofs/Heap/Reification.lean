import TermMachine.Answer
import TermMachine.Proofs.Heap.Solution
import TermMachine.Proofs.Substitution

/-! # Reading terms back from a heap

A heap that has a solution in terms has no structure inside of itself, since terms are finite. So
every term is read back whole, `Heap.reified`, and what is read back is itself a solution. It is the
most general one if the names that it gives to unbound variables are known: every other solution
comes from it by replacing these names.

A heap in which structures contain themselves is read back as well, with cuts.
-/

namespace TermMachine

namespace Heap

variable {h : Heap} {σ : Address → Term} {names : Naming}

/-- All cells for one structure stand for one tree. -/
theorem Solution.eq_of_compound (sol : h.Solution σ) {a b p : Address} {s t : Symbol}
    (ha : h.Compound a s p) (hb : h.Compound b t p) : σ a = σ b := by
  rw [sol.compound ha, sol.compound hb, ha.symbol_eq hb]

theorem Solution.argument_lt (sol : h.Solution σ) {a p : Address} {s : Symbol}
    (hc : h.Compound a s p) {i : Nat} (hi : i < s.arity) :
    (σ (p + 1 + i)).size < (σ a).size := by
  rw [sol.compound hc]
  refine Term.isSize.lt_node (List.mem_map_of_mem (List.mem_range'.mpr ⟨i, hi, ?_⟩))
  rw [Nat.one_mul]

/-! ## Enclosing structures -/

/-- There are no more structures than cells, by the pigeonhole principle. -/
theorem length_le_of_structures {parents : List Identity} (nodup : parents.Nodup)
    (structures : ∀ parent ∈ parents, ∃ p s,
      parent = .compound (p + 1) ∧ h.cells[p]? = some (.symbol s)) : parents.length ≤ h.top := by
  have sub : parents ⊆ (List.range h.top).map fun p => .compound (p + 1) := by
    intro parent mem
    obtain ⟨p, s, rfl, symbol⟩ := structures parent mem
    exact List.mem_map.mpr ⟨p, List.mem_range.mpr (lt_top_of_cell symbol), rfl⟩
  have le := (nodup.subperm sub).length_le
  simpa using le

/-- Different structures, all larger than some term. -/
structure Enclosing (h : Heap) (σ : Address → Term) (bound : Nat) (parents : List Identity) :
    Prop where
  nodup : parents.Nodup
  larger : ∀ parent ∈ parents, ∃ a s p, parent = .compound (p + 1) ∧ h.Compound a s p ∧
    bound < (σ a).size

theorem Enclosing.nil (h : Heap) (σ : Address → Term) (bound : Nat) : h.Enclosing σ bound [] :=
  ⟨List.nodup_nil, fun _ => nofun⟩

theorem Enclosing.length_le {bound : Nat} {parents : List Identity}
    (enclosing : h.Enclosing σ bound parents) : parents.length ≤ h.top := by
  refine length_le_of_structures enclosing.nodup fun parent mem => ?_
  obtain ⟨a, s, p, rfl, ⟨_, _, _, symbol⟩, _⟩ := enclosing.larger parent mem
  exact ⟨p, s, rfl, symbol⟩

/-- A structure is not larger than itself. -/
theorem Enclosing.not_mem {parents : List Identity} {a p : Address} {s : Symbol}
    (enclosing : h.Enclosing σ (σ a).size parents) (sol : h.Solution σ) (hc : h.Compound a s p) :
    Identity.compound (p + 1) ∉ parents := by
  intro mem
  obtain ⟨b, t, q, same, hb, larger⟩ := enclosing.larger _ mem
  obtain rfl : p = q := Nat.succ.inj (Identity.compound.inj same)
  rw [sol.eq_of_compound hb hc] at larger
  exact Nat.lt_irrefl _ larger

theorem Enclosing.cons {bound : Nat} {parents : List Identity} {a p : Address} {s : Symbol}
    (enclosing : h.Enclosing σ (σ a).size parents) (sol : h.Solution σ) (hc : h.Compound a s p)
    (lt : bound < (σ a).size) : h.Enclosing σ bound (.compound (p + 1) :: parents) := by
  refine ⟨List.nodup_cons.mpr ⟨enclosing.not_mem sol hc, enclosing.nodup⟩, fun parent mem => ?_⟩
  rcases List.mem_cons.mp mem with rfl | mem
  · exact ⟨a, s, p, rfl, hc, lt⟩
  · obtain ⟨b, t, q, same, hb, larger⟩ := enclosing.larger parent mem
    exact ⟨b, t, q, same, hb, Nat.lt_trans lt larger⟩

/-! ## Terms that are read back -/

def reified (h : Heap) (names : Naming) (a : Address) : Term :=
  match h.reify names a with
  | .ok t => t
  | .error _ => .var (Identity.unbound a).text

theorem reified_of_reify {a : Address} {t : Term} (read : h.reify names a = .ok t) :
    h.reified names a = t := by
  rw [reified, read]

theorem reifyWithin_unbound {a b : Address} (hu : h.Unbound a b) (depth : Nat)
    (parents : List Identity) :
    h.reifyWithin names (depth + 1) parents a = .ok (.var (names.name (.unbound b))) := by
  simp only [reifyWithin, inspect_eq_unbound_iff.mpr hu]

/-- If the arguments are read back as `R` says, so is the structure. -/
theorem reifyWithin_compound {a p : Address} {s : Symbol} (hc : h.Compound a s p) {depth : Nat}
    {parents : List Identity} (new : Identity.compound (p + 1) ∉ parents) {R : Address → Term}
    (below : ∀ i < s.arity,
      h.reifyWithin names depth (.compound (p + 1) :: parents) (p + 1 + i) = .ok (R (p + 1 + i))) :
    h.reifyWithin names (depth + 1) parents a =
      .ok (Trees.node s.name (treesAt R (p + 1) s.arity)) := by
  obtain ⟨b, _, _, inspected⟩ := hc.inspect
  have outside : parents.contains (.compound (p + 1)) = false := by simpa using new
  simp only [reifyWithin, inspected, outside, Bool.false_eq_true, if_false]
  by_cases none : s.arity = 0
  · rw [if_pos none, none]
    rfl
  · rw [if_neg none]
    have args : collect (h.reifyWithin names depth (.compound (p + 1) :: parents))
        (Arguments.addresses ⟨p + 1, s.arity⟩) = .ok (treesAt R (p + 1) s.arity) := by
      refine collect_eq_ok_iff.mpr ?_
      rw [treesAt, List.map_map]
      refine List.map_congr_left fun c mem => ?_
      obtain ⟨i, hi, rfl⟩ := List.mem_range'.mp mem
      rw [Nat.one_mul]
      exact below i hi
    rw [args]
    have length := length_treesAt R (p + 1) s.arity
    generalize treesAt R (p + 1) s.arity = ts at length
    cases ts with
    | nil => exact absurd length.symm none
    | cons t ts => rfl

theorem reified_unbound {a b : Address} (hu : h.Unbound a b) :
    h.reified names a = .var (names.name (.unbound b)) :=
  reified_of_reify (reifyWithin_unbound hu _ _)

/-- Wherever a term is met on the way down, what is read back from it is the same. -/
theorem WellFormed.reifyWithin_eq (wf : h.WellFormed) (sol : h.Solution σ) {a : Address}
    (term : h.IsTerm a) {depth : Nat} {parents : List Identity}
    (enclosing : h.Enclosing σ (σ a).size parents) (level : depth + parents.length = h.top + 2) :
    h.reifyWithin names depth parents a = .ok (h.reified names a) := by
  induction size : (σ a).size using Nat.strongRecOn generalizing a depth parents with
  | ind n ih =>
      subst size
      -- what is read does not depend on where it is met, and `reified` starts at the top
      obtain ⟨t, reads⟩ : ∃ t, ∀ depth parents, h.Enclosing σ (σ a).size parents →
          depth + parents.length = h.top + 2 → h.reifyWithin names depth parents a = .ok t := by
        rcases wf.value term with ⟨b, hb⟩ | ⟨s, p, hp⟩
        · refine ⟨.var (names.name (.unbound b)), fun depth parents enclosing level => ?_⟩
          have le := enclosing.length_le
          obtain ⟨depth, rfl⟩ : ∃ d, depth = d + 1 := ⟨depth - 1, by omega⟩
          exact reifyWithin_unbound hb depth parents
        · refine ⟨Trees.node s.name (treesAt (h.reified names) (p + 1) s.arity),
            fun depth parents enclosing level => ?_⟩
          have le := enclosing.length_le
          obtain ⟨depth, rfl⟩ : ∃ d, depth = d + 1 := ⟨depth - 1, by omega⟩
          refine reifyWithin_compound hp (enclosing.not_mem sol hp) fun i hi => ?_
          have lt := sol.argument_lt hp hi
          refine ih _ lt (wf.argument hp hi) (enclosing.cons sol hp lt) ?_ rfl
          rw [List.length_cons]
          omega
      rw [reads depth parents enclosing level, reified_of_reify (reads _ [] (.nil h σ _) rfl)]

theorem WellFormed.reify_eq (wf : h.WellFormed) (sol : h.Solution σ) {a : Address}
    (term : h.IsTerm a) : h.reify names a = .ok (h.reified names a) :=
  wf.reifyWithin_eq sol term (.nil h σ _) rfl

theorem WellFormed.reified_compound (wf : h.WellFormed) (sol : h.Solution σ) {a p : Address}
    {s : Symbol} (hc : h.Compound a s p) :
    h.reified names a = Trees.node s.name (treesAt (h.reified names) (p + 1) s.arity) := by
  have none := Enclosing.nil h σ (σ a).size
  refine reified_of_reify (reifyWithin_compound hc (none.not_mem sol hc) fun i hi => ?_)
  exact wf.reifyWithin_eq sol (wf.argument hc hi) (none.cons sol hc (sol.argument_lt hc hi)) rfl

theorem WellFormed.solution_reified (wf : h.WellFormed) (sol : h.Solution σ) :
    h.Solution (h.reified names) :=
  wf.readable.solution reified_unbound fun hc => wf.reified_compound sol hc

/-- What is read back turns into any other solution when the names of unbound variables are
replaced by what these are there. -/
theorem WellFormed.subst_reified (wf : h.WellFormed) (sol : h.Solution σ) {t : String → Term}
    (unbound : ∀ b : Address, h.cells[b]? = some (.ref b) → t (names.name (.unbound b)) = σ b)
    {a : Address} (term : h.IsTerm a) : Term.subst t (h.reified names a) = σ a := by
  induction size : (σ a).size using Nat.strongRecOn generalizing a with
  | ind n ih =>
      subst size
      rcases wf.value term with ⟨b, hb⟩ | ⟨s, p, hp⟩
      · rw [reified_unbound hb, sol.endsAt hb.1]
        exact unbound b hb.2
      · rw [wf.reified_compound sol hp, sol.compound hp]
        show Term.subst t (Term.apply _ _) = Term.apply _ _
        rw [Term.subst_apply, treesAt, treesAt, List.map_map]
        refine congrArg (Term.apply s.name) (List.map_congr_left fun c mem => ?_)
        obtain ⟨i, hi, rfl⟩ := List.mem_range'.mp mem
        rw [Nat.one_mul]
        exact ih _ (sol.argument_lt hp hi) (wf.argument hp hi) rfl

/-! ## Structures inside of themselves -/

/-- Even if structures contain themselves, a term can be read back. Along the way down structures do
not repeat, so they run out before the depth does. -/
theorem WellFormed.exists_reifyWithin (wf : h.WellFormed) {a : Address} (term : h.IsTerm a)
    {depth : Nat} {parents : List Identity} (nodup : parents.Nodup)
    (structures : ∀ parent ∈ parents, ∃ p s,
      parent = .compound (p + 1) ∧ h.cells[p]? = some (.symbol s))
    (level : depth + parents.length = h.top + 2) :
    ∃ t, h.reifyWithin names depth parents a = .ok t := by
  induction depth generalizing a parents with
  | zero =>
      have le := length_le_of_structures nodup structures
      omega
  | succ depth ih =>
      rcases wf.value term with ⟨b, hb⟩ | ⟨s, p, hp⟩
      · exact ⟨_, reifyWithin_unbound hb depth parents⟩
      · obtain ⟨_, _, _, inspected⟩ := hp.inspect
        simp only [reifyWithin, inspected]
        split
        · exact ⟨_, rfl⟩
        · next new =>
            split
            · exact ⟨_, rfl⟩
            · have outside : Identity.compound (p + 1) ∉ parents := by simpa using new
              have deeper : ∀ parent ∈ .compound (p + 1) :: parents, ∃ q t,
                  parent = .compound (q + 1) ∧ h.cells[q]? = some (.symbol t) := by
                refine List.forall_mem_cons.mpr ⟨?_, structures⟩
                obtain ⟨_, _, _, symbol⟩ := hp
                exact ⟨p, s, rfl, symbol⟩
              obtain ⟨args, read⟩ : ∃ args,
                  collect (h.reifyWithin names depth (.compound (p + 1) :: parents))
                    (Arguments.addresses ⟨p + 1, s.arity⟩) = .ok args := by
                refine exists_collect fun c mem => ?_
                obtain ⟨i, hi, rfl⟩ := List.mem_range'.mp mem
                rw [Nat.one_mul]
                refine ih (wf.argument hp hi) (List.nodup_cons.mpr ⟨outside, nodup⟩) deeper ?_
                rw [List.length_cons]
                omega
              rw [read]
              exact ⟨_, rfl⟩

theorem WellFormed.exists_reify (wf : h.WellFormed) {a : Address} (term : h.IsTerm a) :
    ∃ t, h.reify names a = .ok t :=
  wf.exists_reifyWithin term List.nodup_nil (fun _ => nofun) rfl

end Heap

end TermMachine
