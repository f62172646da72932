import TermMachine.Proofs.Heap.Reification
import Mathlib.Data.Fintype.Card
import Mathlib.Logic.Relation

/-! # Heaps without cycles

If no structure contains itself, every address denotes a finite term as soon as the unbound
variables have values, `Denotes`. The terms that are denoted are then a solution of the heap, and
the other way round a heap with a solution in finite terms is acyclic: what a structure contains has
smaller terms. A binding does not make the occurs check: the heap stays acyclic if the variable
cannot be reached from what it is bound to, `Binding.acyclic`, and only then, `Binding.not_acyclic`.
-/

namespace TermMachine

namespace Heap

variable {h : Heap} {θ θ' σ : Address → Term}

/-- The argument cells of the structure that an address leads to, none if it is a variable. -/
def argumentsOf (h : Heap) (a : Address) : List Address :=
  match h.arguments a with
  | .ok args => args.addresses
  | .error _ => []

def HasArgument (h : Heap) (a c : Address) : Prop := c ∈ h.argumentsOf a

/-- No structure contains itself. -/
def Acyclic (h : Heap) : Prop := ∀ a, ¬Relation.TransGen h.HasArgument a a

/-- Following references and going into arguments leads from `a` to the cell at `b`. -/
def Reaches (h : Heap) (a b : Address) : Prop :=
  ∃ c, Relation.ReflTransGen h.HasArgument a c ∧ h.EndsAt c b

/-- The term that an address stands for if the unbound variables have values. -/
inductive Denotes (h : Heap) (θ : Address → Term) : Address → Term → Prop
  | unbound {a b : Address} (hu : h.Unbound a b) : Denotes h θ a (θ b)
  | compound {a p : Address} {s : Symbol} {ts : List Term} (hc : h.Compound a s p)
      (count : ts.length = s.arity)
      (args : ∀ i (hi : i < ts.length), Denotes h θ (p + 1 + i) ts[i]) :
      Denotes h θ a (Term.apply s.name ts)

/-! ## Arguments -/

theorem Unbound.unique {a b c : Address} (hb : h.Unbound a b) (hc : h.Unbound a c) : b = c :=
  hb.1.unique hc.1

theorem Compound.unique {a p q : Address} {s t : Symbol} (hp : h.Compound a s p)
    (hq : h.Compound a t q) : s = t ∧ p = q := by
  obtain ⟨b, hab, cell, symbol⟩ := hp
  obtain ⟨c, hac, cell', symbol'⟩ := hq
  obtain rfl := hab.unique hac
  obtain rfl : p = q := by simpa [cell] using cell'
  exact ⟨by simpa [symbol] using symbol', rfl⟩

theorem Compound.not_unbound {a b p : Address} {s : Symbol} (hc : h.Compound a s p) :
    ¬h.Unbound a b := by
  rintro ⟨hab, cell⟩
  obtain ⟨c, hac, cell', _⟩ := hc
  obtain rfl := hab.unique hac
  simp [cell] at cell'

theorem Compound.argumentsOf {a p : Address} {s : Symbol} (hc : h.Compound a s p) :
    h.argumentsOf a = List.range' (p + 1) s.arity := by
  obtain ⟨b, _, _, inspected⟩ := hc.inspect
  simp only [Heap.argumentsOf, arguments, inspected, Arguments.addresses]

theorem Unbound.argumentsOf {a b : Address} (hu : h.Unbound a b) : h.argumentsOf a = [] := by
  simp only [Heap.argumentsOf, arguments, inspect_eq_unbound_iff.mpr hu]

theorem Compound.hasArgument {a p : Address} {s : Symbol} (hc : h.Compound a s p) {i : Nat}
    (hi : i < s.arity) : h.HasArgument a (p + 1 + i) := by
  rw [HasArgument, hc.argumentsOf]
  exact List.mem_range'.mpr ⟨i, hi, by rw [Nat.one_mul]⟩

theorem HasArgument.compound {a c : Address} (mem : h.HasArgument a c) :
    ∃ s p i, h.Compound a s p ∧ i < s.arity ∧ c = p + 1 + i := by
  unfold HasArgument Heap.argumentsOf at mem
  split at mem
  · next args found =>
      unfold arguments at found
      split at found
      · cases found
      · next b s first inspected =>
          obtain ⟨hab, f, cell, symbol, rfl⟩ := inspect_eq_compound_iff.mp inspected
          cases found
          obtain ⟨i, hi, rfl⟩ := List.mem_range'.mp mem
          exact ⟨s, f, i, ⟨b, hab, cell, symbol⟩, hi, by rw [Nat.one_mul]⟩
      · cases found
  · cases mem

theorem EndsAt.hasArgument {a b c : Address} (hab : h.EndsAt a b) (mem : h.HasArgument b c) :
    h.HasArgument a c := by
  obtain ⟨s, p, i, ⟨d, hbd, cell⟩, hi, rfl⟩ := mem.compound
  obtain rfl := hab.last_refl.unique hbd
  exact Compound.hasArgument ⟨b, hab, cell⟩ hi

theorem HasArgument.isTerm {a c : Address} (mem : h.HasArgument a c) (hr : h.Readable) :
    h.IsTerm c := by
  obtain ⟨s, p, i, hc, hi, rfl⟩ := mem.compound
  exact hr.argument hc hi

theorem Compound.isTerm {a p : Address} {s : Symbol} (hc : h.Compound a s p) : h.IsTerm a := by
  obtain ⟨b, hab, _⟩ := hc
  exact hab.isTerm

/-- In an acyclic heap there is induction from the arguments to the structure, because there are
only finitely many cells. -/
theorem Acyclic.induction (acyclic : h.Acyclic) (hr : h.Readable) {P : Address → Prop}
    (step : ∀ a, h.IsTerm a → (∀ c, h.HasArgument a c → P c) → P a) {a : Address}
    (term : h.IsTerm a) : P a := by
  let Inside (c a : Fin h.top) : Prop := Relation.TransGen h.HasArgument a.val c.val
  have trans : IsTrans _ Inside := ⟨fun _ _ _ hab hbc => hbc.trans hab⟩
  have irrefl : Std.Irrefl Inside := ⟨fun a => acyclic a⟩
  have wellFounded : WellFounded Inside := Finite.wellFounded_of_trans_of_irrefl Inside
  have all (a : Fin h.top) : h.IsTerm a → P a := by
    induction a using wellFounded.induction with
    | _ a ih =>
        refine fun term => step a term fun c mem => ?_
        have inner := mem.isTerm hr
        exact ih ⟨c, inner.lt_top⟩ (.single mem) inner
  exact all ⟨a, term.lt_top⟩ term

/-! ## What is denoted -/

theorem Denotes.isTerm {a : Address} {t : Term} (ht : h.Denotes θ a t) : h.IsTerm a := by
  cases ht with
  | unbound hu => exact hu.1.isTerm
  | compound hc _ _ => exact hc.isTerm

theorem Denotes.unique {a : Address} {t u : Term} (ht : h.Denotes θ a t) (hu : h.Denotes θ a u) :
    t = u := by
  induction ht generalizing u with
  | unbound hb =>
      cases hu with
      | unbound hc => rw [hb.unique hc]
      | compound hc _ _ => exact absurd hb hc.not_unbound
  | compound hp count _ ih =>
      cases hu with
      | unbound hc => exact absurd hc hp.not_unbound
      | compound hq count' args' =>
          obtain ⟨rfl, rfl⟩ := hp.unique hq
          refine congrArg _ (List.ext_getElem (count.trans count'.symm) fun i hi hi' => ?_)
          exact ih i hi (args' i hi')

/-- Only the variables that can be reached matter. -/
theorem Denotes.congr {a : Address} {t : Term} (ht : h.Denotes θ a t)
    (same : ∀ b, h.Reaches a b → h.cells[b]? = some (.ref b) → θ' b = θ b) : h.Denotes θ' a t := by
  induction ht with
  | unbound hu =>
      rw [← same _ ⟨_, .refl, hu.1⟩ hu.2]
      exact .unbound hu
  | compound hc count _ ih =>
      refine .compound hc count fun i hi => ih i hi fun b reached cell => same b ?_ cell
      obtain ⟨c, path, ends⟩ := reached
      exact ⟨c, path.head (hc.hasArgument (count ▸ hi)), ends⟩

theorem Acyclic.exists_denotes (acyclic : h.Acyclic) (hr : h.Readable) (θ : Address → Term)
    {a : Address} (term : h.IsTerm a) : ∃ t, h.Denotes θ a t := by
  refine acyclic.induction (P := fun a => ∃ t, h.Denotes θ a t) hr (fun a term args => ?_) term
  rcases hr.value term with ⟨b, hb⟩ | ⟨s, p, hp⟩
  · exact ⟨θ b, .unbound hb⟩
  · have each (i : Fin s.arity) : ∃ t, h.Denotes θ (p + 1 + i) t :=
      args _ (hp.hasArgument i.isLt)
    choose ts denoted using each
    have count : (List.ofFn ts).length = s.arity := List.length_ofFn
    refine ⟨_, .compound hp count fun i hi => ?_⟩
    rw [List.getElem_ofFn]
    exact denoted ⟨i, count ▸ hi⟩

/-- The values of the variables make a solution. -/
theorem Acyclic.exists_solution (acyclic : h.Acyclic) (hr : h.Readable) (θ : Address → Term) :
    ∃ σ, h.Solution σ ∧ ∀ a t, h.Denotes θ a t → σ a = t := by
  have each (a : Address) : ∃ t, h.IsTerm a → h.Denotes θ a t := by
    by_cases term : h.IsTerm a
    · obtain ⟨t, denoted⟩ := acyclic.exists_denotes hr θ term
      exact ⟨t, fun _ => denoted⟩
    · exact ⟨.atom "", fun term' => absurd term' term⟩
  choose σ denoted using each
  have value {a : Address} {t : Term} (ht : h.Denotes θ a t) (term : h.IsTerm a) : σ a = t :=
    (denoted a term).unique ht
  refine ⟨σ, ?_, fun a t ht => value ht ht.isTerm⟩
  refine hr.solution (fun hu => value (.unbound hu) hu.1.isTerm) fun {a p s} hc => ?_
  refine value (.compound hc (length_treesAt σ (p + 1) s.arity) fun i hi => ?_) hc.isTerm
  rw [length_treesAt] at hi
  rw [getElem_treesAt]
  exact denoted _ (hr.argument hc hi)

/-- A solution in finite terms is what the addresses denote with its own values. -/
theorem Readable.denotes (hr : h.Readable) (sol : h.Solution σ) {a : Address}
    (term : h.IsTerm a) : h.Denotes σ a (σ a) := by
  induction size : (σ a).size using Nat.strongRecOn generalizing a with
  | ind n ih =>
      subst size
      rcases hr.value term with ⟨b, hb⟩ | ⟨s, p, hp⟩
      · rw [sol.endsAt hb.1]
        exact .unbound hb
      · rw [sol.compound hp]
        refine .compound hp (length_treesAt σ (p + 1) s.arity) fun i hi => ?_
        rw [length_treesAt] at hi
        rw [getElem_treesAt]
        exact ih _ (sol.argument_lt hp hi) (hr.argument hp hi) rfl

/-- There is no cycle if some number goes down from structures to their arguments. -/
theorem acyclic_of_lt (rank : Address → Nat)
    (down : ∀ a < h.top, ∀ c ∈ h.argumentsOf a, rank c < rank a) : h.Acyclic := by
  have step {a c : Address} (mem : h.HasArgument a c) : rank c < rank a := by
    obtain ⟨s, p, i, hc, _, _⟩ := mem.compound
    exact down a hc.isTerm.lt_top c mem
  have below {a c : Address} (inside : Relation.TransGen h.HasArgument a c) :
      rank c < rank a := by
    induction inside with
    | single mem => exact step mem
    | tail _ mem ih => exact Nat.lt_trans (step mem) ih
  exact fun a cycle => Nat.lt_irrefl _ (below cycle)

theorem Solution.acyclic (sol : h.Solution σ) : h.Acyclic := by
  refine acyclic_of_lt (fun a => (σ a).size) fun a _ c mem => ?_
  obtain ⟨s, p, i, hc, hi, rfl⟩ := HasArgument.compound mem
  exact sol.argument_lt hc hi

/-! ## Bindings -/

/-- Without the variable in what it is bound to, no cycle comes about. -/
theorem Binding.acyclic {source target : Address} (binding : h.Binding source target)
    (hr : h.Readable) (acyclic : h.Acyclic) (apart : ¬h.Reaches target source) :
    (h.assign source target).Acyclic := by
  obtain ⟨σ, sol, _⟩ := acyclic.exists_solution hr fun _ => .atom ""
  -- the variable takes the value of what it is bound to, and that value does not depend on it
  obtain ⟨σ', sol', value⟩ := acyclic.exists_solution hr
    fun b => if b = source then σ target else σ b
  have atTarget : σ' target = σ target := by
    refine value _ _ ((hr.denotes sol binding.stays.isTerm).congr fun b reached _ => if_neg ?_)
    rintro rfl
    exact apart reached
  have atSource : σ' source = σ target := by
    have here := value source _ (.unbound ⟨.unbound binding.unbound, binding.unbound⟩)
    rwa [if_pos rfl] at here
  have both := binding.solution_iff.mpr ⟨sol', atSource.trans atTarget.symm⟩
  exact both.acyclic

theorem Binding.hasArgument {source target a c : Address} (binding : h.Binding source target)
    (mem : h.HasArgument a c) : (h.assign source target).HasArgument a c := by
  obtain ⟨s, p, i, ⟨b, hab, cell, symbol⟩, hi, rfl⟩ := mem.compound
  have other : b ≠ source := by
    rintro rfl
    simp [binding.unbound] at cell
  refine Compound.hasArgument (s := s) ⟨b, ?_, ?_, ?_⟩ hi
  · exact binding.endsAt_of_ne hab other
  · exact binding.str_iff.mpr cell
  · exact binding.symbol_iff.mpr symbol

/-- With the variable in what it is bound to, a cycle comes about. -/
theorem Binding.not_acyclic {source target : Address} (binding : h.Binding source target)
    (reached : h.Reaches target source) : ¬(h.assign source target).Acyclic := by
  obtain ⟨c, path, ends⟩ := reached
  cases path using Relation.ReflTransGen.head_induction_on with
  | refl => exact absurd (binding.stays.unique ends) binding.distinct
  | head mem rest =>
      -- the way back to `c` starts at `c`, which leads to the target now
      have back := (binding.endsAt_of_source ends).hasArgument (binding.hasArgument mem)
      have rest := Relation.ReflTransGen.mono (fun _ _ => binding.hasArgument) _ _ rest
      exact fun acyclic => acyclic c (.head' back rest)

/-- From a variable nothing but itself is reached. -/
theorem Unbound.eq_of_reaches {a b c : Address} (hu : h.Unbound a b) (reached : h.Reaches a c) :
    c = b := by
  obtain ⟨d, path, ends⟩ := reached
  cases path using Relation.ReflTransGen.head_induction_on with
  | refl => exact ends.unique hu.1
  | head mem _ =>
      rw [HasArgument, hu.argumentsOf] at mem
      cases mem

end Heap

end TermMachine
