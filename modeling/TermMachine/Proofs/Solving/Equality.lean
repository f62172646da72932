import TermMachine.Proofs.Numeral
import TermMachine.Proofs.Solving.Ground
import TermMachine.Proofs.Solving.Swap

/-! # Ground terms are compared

One ground term is built and another one is matched against it, structure by structure. The machine
decides by this whether they are equal, `solve_concrete`, up to one thing: it knows names only, so a
number is not told from the atom of its text. Numbers among themselves are told apart, since no two
of them have one text.
-/

namespace TermMachine

open Machine

namespace Term

/-- A term without variables in which no name is applied to nothing. -/
structure Concrete (t : Term) : Prop where
  vars : t.vars = []
  applied : ∀ name, .compound name [] ∉ t.preorder

/-- The terms are equal, except that where one of them has a number the other one may have the atom
of its text. -/
inductive Alike : Term → Term → Prop
  | atom (name : String) : Alike (.atom name) (.atom name)
  | number (value : Numeral) : Alike (.number value) (.number value)
  | var (name : String) : Alike (.var name) (.var name)
  | numberAtom (value : Numeral) : Alike (.number value) (.atom (toString value))
  | atomNumber (value : Numeral) : Alike (.atom (toString value)) (.number value)
  | compound (name : String) {ss ts : List Term} (count : ss.length = ts.length)
      (each : ∀ i (hi : i < ss.length) (hi' : i < ts.length), Alike ss[i] ts[i]) :
      Alike (.compound name ss) (.compound name ts)

theorem Alike.refl (t : Term) : Alike t t := by
  induction t using TermOf.induction with
  | atom name => exact .atom name
  | number value => exact .number value
  | var name => exact .var name
  | compound name args ih =>
      exact .compound name rfl fun i hi _ => ih args[i] (List.getElem_mem hi)

/-- What tells terms that are alike from each other is a number in one of them, and the atom of its
text in the other. -/
theorem Alike.eq_or_number {s t : Term} (alike : Alike s t) :
    s = t ∨ ∃ value : Numeral,
      (.number value ∈ s.preorder ∧ .atom (toString value) ∈ t.preorder) ∨
      (.atom (toString value) ∈ s.preorder ∧ .number value ∈ t.preorder) := by
  induction alike with
  | atom name => exact .inl rfl
  | number value => exact .inl rfl
  | var name => exact .inl rfl
  | numberAtom value => exact .inr ⟨value, .inl (by simp [TermOf.preorder])⟩
  | atomNumber value => exact .inr ⟨value, .inr (by simp [TermOf.preorder])⟩
  | @compound name ss ts count each ih =>
      by_cases same : ss = ts
      · exact .inl (by rw [same])
      · have differ : ∃ i, ∃ (hi : i < ss.length) (hi' : i < ts.length), ss[i] ≠ ts[i] := by
          by_contra none
          push Not at none
          exact same (List.ext_getElem count none)
        obtain ⟨i, hi, hi', differ⟩ := differ
        have below {u : Term} {us : List Term} (hu : i < us.length)
            (part : u ∈ us[i].preorder) : u ∈ (TermOf.compound name us : Term).preorder :=
          List.mem_cons_of_mem _ (mem_preorderAll_iff.mpr ⟨_, List.getElem_mem hu, part⟩)
        obtain ⟨value, ⟨left, right⟩ | ⟨left, right⟩⟩ := (ih i hi hi').resolve_left differ
        · exact .inr ⟨value, .inl ⟨below hi left, below hi' right⟩⟩
        · exact .inr ⟨value, .inr ⟨below hi left, below hi' right⟩⟩

theorem Concrete.arg {name : String} {args : List Term}
    (concrete : Concrete (.compound name args)) {t : Term} (mem : t ∈ args) : Concrete t where
  vars := by
    have none := vars_eq_nil_iff.mp concrete.vars
    rw [TermOf.occurrences, occurrencesAll_eq_flatMap, List.flatMap_eq_nil_iff] at none
    exact vars_eq_nil_iff.mpr (none t mem)
  applied f part :=
    concrete.applied f (List.mem_cons_of_mem _ (mem_preorderAll_iff.mpr ⟨t, mem, part⟩))

theorem Concrete.args_ne_nil {name : String} {args : List Term}
    (concrete : Concrete (.compound name args)) : args ≠ [] := by
  rintro rfl
  exact concrete.applied name List.mem_cons_self

theorem not_concrete_var (name : String) : ¬Concrete (.var name) :=
  fun concrete => absurd concrete.vars (List.cons_ne_nil name [])

/-! ## Values -/

section

variable {τ : Type} [Trees τ]

/-- Terms that are alike have one value. -/
theorem Alike.eval_eq {s t : Term} (alike : Alike s t) (θ : String → τ) :
    eval θ s = eval θ t := by
  induction alike with
  | atom name => rfl
  | number value => rfl
  | var name => rfl
  | numberAtom value => rfl
  | atomNumber value => rfl
  | compound name count each ih =>
      rw [eval, eval, evalAll_eq_map, evalAll_eq_map]
      congr 1
      refine List.ext_getElem (by simpa using count) fun i hi hi' => ?_
      rw [List.getElem_map, List.getElem_map]
      exact ih i (by simpa using hi) (by simpa using hi')

theorem leaf_ne_applied {ts : List Term} (full : ts ≠ []) (f g : String) (θ : String → τ) :
    (Trees.node f [] : τ) ≠ Trees.node g (evalAll θ ts) := by
  intro same
  have none := (Trees.node_inj same).2
  rw [evalAll_eq_map, eq_comm, List.map_eq_nil_iff] at none
  exact full none

/-- Concrete terms with one value are alike. Their variables, which they do not have, may stand for
different trees. -/
theorem Concrete.alike_of_eval_eq {θ ψ : String → τ} {s t : Term} (concrete : Concrete s)
    (concrete' : Concrete t) (same : eval θ s = eval ψ t) : Alike s t := by
  induction s using TermOf.induction generalizing t with
  | atom name =>
      cases t with
      | atom name' =>
          obtain ⟨rfl, -⟩ := Trees.node_inj same
          exact .atom name
      | number value =>
          obtain ⟨rfl, -⟩ := Trees.node_inj same
          exact .atomNumber value
      | var name' => exact absurd concrete' (not_concrete_var name')
      | compound g ts => exact absurd same (leaf_ne_applied concrete'.args_ne_nil name g ψ)
  | number value =>
      cases t with
      | atom name =>
          obtain ⟨rfl, -⟩ := Trees.node_inj same
          exact .numberAtom value
      | number value' =>
          obtain rfl := Numeral.toString_inj.mp (Trees.node_inj same).1
          exact .number value
      | var name => exact absurd concrete' (not_concrete_var name)
      | compound g ts => exact absurd same (leaf_ne_applied concrete'.args_ne_nil _ g ψ)
  | var name => exact absurd concrete (not_concrete_var name)
  | compound f ss ih =>
      cases t with
      | atom name => exact absurd same.symm (leaf_ne_applied concrete.args_ne_nil name f θ)
      | number value => exact absurd same.symm (leaf_ne_applied concrete.args_ne_nil _ f θ)
      | var name => exact absurd concrete' (not_concrete_var name)
      | compound g ts =>
          obtain ⟨rfl, values⟩ := Trees.node_inj same
          rw [evalAll_eq_map, evalAll_eq_map] at values
          have count : ss.length = ts.length := by
            simpa using congrArg List.length values
          refine .compound f count fun i hi hi' => ?_
          have value := congrArg (·[i]?) values
          simp only [List.getElem?_map, List.getElem?_eq_getElem hi,
            List.getElem?_eq_getElem hi', Option.map_some, Option.some.injEq] at value
          exact ih _ (List.getElem_mem hi) (concrete.arg (List.getElem_mem hi))
            (concrete'.arg (List.getElem_mem hi')) value

end

theorem Alike.single {s t : Term} (alike : Alike s t) (f : String) :
    Alike (.compound f [s]) (.compound f [t]) := by
  refine .compound f rfl fun i hi _ => ?_
  obtain rfl := Nat.lt_one_iff.mp hi
  exact alike

/-- Among concrete terms those that are alike are exactly those with a common instance. -/
theorem Concrete.haveInstance_iff {s t : Term} (concrete : Concrete s) (concrete' : Concrete t)
    (f : String) : HaveInstance (.compound f [s]) (.compound f [t]) ↔ Alike s t := by
  constructor
  · rintro ⟨α, θ, ψ, same⟩
    exact concrete.alike_of_eval_eq concrete' (List.cons.inj (Trees.node_inj same).2).1
  · exact fun alike => ⟨Unit, _, fun _ => Tree.leaf (), (alike.single f).eval_eq _⟩

theorem Concrete.vars_single {t : Term} (concrete : Concrete t) (f : String) :
    TermOf.vars (.compound f [t] : Term) = [] := by
  rw [vars_eq_nil_iff, TermOf.occurrences, occurrencesAll_eq_flatMap, List.flatMap_singleton]
  exact vars_eq_nil_iff.mp concrete.vars

end Term

/-! ## Comparing -/

theorem Machine.Posed.foundAll_eq_nil {query program : Term} {m : Machine} {root : Address}
    (posed : Posed query program m root) (none : query.vars ++ program.vars = []) (m' : Machine) :
    foundAll query program m m' = [] := by
  rw [← List.map_eq_nil_iff, foundAll, List.map_append, names_found posed.exactQuery,
    names_found posed.exactProgram]
  exact none

/-- An application of a name to a concrete term meets one to another concrete term. However little
work is allowed, the answer is yes exactly if the two terms are alike and no otherwise. It is never
wrong about equal terms, and it is only wrong about terms that differ where a number stands against
the atom of its text. -/
theorem solve_concrete (f : String) (s t : Term) (concrete : s.Concrete) (concrete' : t.Concrete)
    (fuel : Nat) :
    let query : Term := .compound f [s]
    let program : Term := .compound f [t]
    let result := ((CompiledUnit.ofTerms query program).solve fuel .unlimited).result
    (CompiledUnit.compile query program = .ok (.ofTerms query program) ↔ s.Fits ∧ t.Fits) ∧
      (result = .ok (some ⟨[]⟩) ↔ Term.Alike s t) ∧ (result = .ok none ↔ ¬Term.Alike s t) ∧
      (s = t → Term.Alike s t) ∧
      (Term.Alike s t → s = t ∨ ∃ value : Numeral,
        (.number value ∈ s.preorder ∧ .atom (toString value) ∈ t.preorder) ∨
        (.atom (toString value) ∈ s.preorder ∧ .number value ∈ t.preorder)) := by
  intro query program result
  obtain ⟨m, root, posed⟩ := exists_posed f f [s] [t]
  have none : query.vars ++ program.vars = [] := by
    rw [concrete.vars_single f, concrete'.vars_single f, List.append_nil]
  have decided : (Term.Alike s t ∧ result = .ok (some ⟨[]⟩)) ∨
      (¬Term.Alike s t ∧ result = .ok Option.none) := by
    rw [← concrete.haveInstance_iff concrete' f]
    rcases posed.decides fuel with ⟨common, m', answer, made, yes⟩ | refused | ⟨⟨m', ended⟩, _⟩
    · rw [posed.foundAll_eq_nil none m'] at made
      cases made
      exact .inl ⟨common, yes⟩
    · exact .inr refused
    · have ready := posed.built.ready
      obtain ⟨x, mem⟩ := ready.wellFormed.compares_of_unfinished ready.alive ended
      exact absurd mem (Code.not_compares_ground concrete'.vars x)
  refine ⟨?_, ?_, ?_, fun same => same ▸ .refl s, Term.Alike.eq_or_number⟩
  · rw [CompiledUnit.compile_eq_ok_iff, Term.fits_singleton_iff, Term.fits_singleton_iff]
    exact ⟨fun ⟨fits, fits', _⟩ => ⟨fits, fits'⟩, fun ⟨fits, fits'⟩ => ⟨fits, fits', rfl⟩⟩
  · rcases decided with ⟨alike, yes⟩ | ⟨differ, no⟩
    · exact iff_of_true yes alike
    · exact iff_of_false (by simp [no]) differ
  · rcases decided with ⟨alike, yes⟩ | ⟨differ, no⟩
    · exact iff_of_false (by simp [yes]) (not_not_intro alike)
    · exact iff_of_true no differ

/-- The numbers `1.5` and `15` have the same digits and are told apart. -/
theorem solve_concrete_digits :
    let s : Term := .compound "g" [.number ⟨15, 1⟩, .atom "b"]
    let t : Term := .compound "g" [.number ⟨15, 0⟩, .atom "b"]
    let result (program : Term) :=
      ((CompiledUnit.ofTerms (.compound "f" [s]) program).solve 0 .unlimited).result
    s.Concrete ∧ t.Concrete ∧ result (.compound "f" [s]) = .ok (some ⟨[]⟩) ∧
      result (.compound "f" [t]) = .ok none := by
  intro s t result
  have concrete : s.Concrete := ⟨rfl, by simp [s, TermOf.preorder, TermOf.preorderAll]⟩
  have concrete' : t.Concrete := ⟨rfl, by simp [t, TermOf.preorder, TermOf.preorderAll]⟩
  have differ : ¬Term.Alike s t := by
    intro alike
    simp only [s, t] at alike
    cases alike with
    | compound _ _ each =>
        have numbers : Term.Alike (.number ⟨15, 1⟩) (.number ⟨15, 0⟩) :=
          each 0 (by decide) (by decide)
        cases numbers
  obtain ⟨_, yes, _⟩ := solve_concrete "f" s s concrete concrete 0
  obtain ⟨_, _, no, _⟩ := solve_concrete "f" s t concrete concrete' 0
  exact ⟨concrete, concrete', yes.mpr (.refl s), no.mpr differ⟩

/-- The atom `'1'` and the number `1` are different terms, and the answer is yes. -/
theorem solve_atom_number :
    let s : Term := .atom "1"
    let t : Term := .number ⟨1, 0⟩
    s.Concrete ∧ t.Concrete ∧ s ≠ t ∧
      Term.SaysYes 0 (.compound "f" [s]) (.compound "f" [t]) := by
  intro s t
  have fits : Term.Fits (.compound "f" [s]) := Term.tooWide?_eq_none_iff.mp (by decide)
  have fits' : Term.Fits (.compound "f" [t]) := Term.tooWide?_eq_none_iff.mp (by decide)
  have result : ((CompiledUnit.ofTerms (.compound "f" [s]) (.compound "f" [t])).solve 0
      .unlimited).result = .ok (some ⟨[]⟩) := by
    decide +kernel
  refine ⟨⟨rfl, by simp [s, TermOf.preorder]⟩, ⟨rfl, by simp [t, TermOf.preorder]⟩, nofun, ?_⟩
  exact ⟨_, _, CompiledUnit.compile_eq_ok_iff.mpr ⟨fits, fits', rfl⟩, result⟩

end TermMachine
