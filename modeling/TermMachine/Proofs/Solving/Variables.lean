import TermMachine.Proofs.Answer
import TermMachine.Proofs.Solving.Runs

/-! # The variables of a run

The registers of the variables of a term, and the addresses that are noted from them. Every variable
of the term is listed once, and after the code of the term has been run it has an address.
-/

namespace TermMachine

theorem nodup_eraseDups (names : List String) : names.eraseDups.Nodup := by
  induction size : names.length using Nat.strongRecOn generalizing names with
  | ind n ih =>
      subst size
      cases names with
      | nil => exact List.nodup_nil
      | cons name names =>
          rw [List.eraseDups_cons, List.nodup_cons, List.mem_eraseDups]
          refine ⟨by simp, ih _ ?_ _ rfl⟩
          exact Nat.lt_succ_of_le (List.length_filter_le _ names)

namespace CompiledTerm

variable {a : Allocation} {t : Term}

theorem exists_part (exact' : a.Exact t) {name : String} (occurs : name ∈ t.vars) :
    ∃ x, .var x name ∈ a.root.preorder ∧ a.vars.lookup name = some x := by
  obtain ⟨x, part⟩ := exact'.represents.mem_occurrences_iff.mp (List.mem_eraseDups.mp occurs)
  exact ⟨x, part, exact'.named x name part⟩

theorem names_variablesOf (exact' : a.Exact t) : (variablesOf t a).map Prod.fst = t.vars := by
  rw [variablesOf, List.map_filterMap]
  refine (List.filterMap_congr fun name occurs => ?_).trans List.filterMap_some
  obtain ⟨x, _, found⟩ := exists_part exact' occurs
  rw [found]
  rfl

theorem mem_variablesOf_iff (exact' : a.Exact t) {x : Register} {name : String} :
    (name, x) ∈ variablesOf t a ↔ .var x name ∈ a.root.preorder := by
  rw [variablesOf, List.mem_filterMap]
  constructor
  · rintro ⟨v, occurs, eq⟩
    obtain ⟨y, part, found⟩ := exists_part exact' occurs
    rw [found] at eq
    cases eq
    exact part
  · intro part
    refine ⟨name, ?_, by rw [exact'.named x name part]; rfl⟩
    exact List.mem_eraseDups.mpr (exact'.represents.mem_occurrences_iff.mpr ⟨x, part⟩)

/-- A variable as the whole term has register 0. -/
theorem variablesOf_var (name : String) :
    variablesOf (.var name) (Allocation.ofTerm (.var name)) = [(name, 0)] := by
  simp [variablesOf, TermOf.vars, TermOf.occurrences, Allocation.ofTerm, List.eraseDups_cons]

theorem names_vars (t : Term) : (query t).vars.map Prod.fst = t.vars := by
  cases t with
  | atom name => rfl
  | number value => rfl
  | var name =>
      show (variablesOf (.var name) _).map Prod.fst = _
      rw [variablesOf_var]
      rfl
  | compound name args => exact names_variablesOf (Allocation.exact_ofTerm name args)

end CompiledTerm

namespace Machine

variable {a : Allocation} {t : Term}

def found (a : Allocation) (t : Term) (m : Machine) : List (String × Option Address) :=
  (CompiledTerm.variablesOf t a).map fun pair => (pair.1, m.registers.held pair.2)

theorem capture_eq {m : Machine} {vars : List (String × Register)}
    (held : ∀ pair ∈ vars, ∃ b, m.registers.held pair.2 = some b) :
    m.capture vars = .ok (vars.map fun pair => (pair.1, m.registers.held pair.2)) := by
  refine collect_eq_ok_iff.mpr ?_
  rw [List.map_map]
  refine List.map_congr_left fun pair mem => ?_
  obtain ⟨b, hb⟩ := held pair mem
  simp [register, Registers.get_eq_held hb, hb]

theorem names_found (exact' : a.Exact t) (m : Machine) : (found a t m).map Prod.fst = t.vars := by
  rw [found, List.map_map, ← CompiledTerm.names_variablesOf exact']
  rfl

theorem nodup_found (exact' : a.Exact t) (m : Machine) : ((found a t m).map Prod.fst).Nodup := by
  rw [names_found exact']
  exact nodup_eraseDups t.occurrences

theorem mem_found_iff (exact' : a.Exact t) {m : Machine} {name : String} {slot : Option Address} :
    (name, slot) ∈ found a t m ↔
      ∃ x, .var x name ∈ a.root.preorder ∧ m.registers.held x = slot := by
  rw [found, List.mem_map]
  constructor
  · rintro ⟨⟨v, x⟩, mem, eq⟩
    cases eq
    exact ⟨x, (CompiledTerm.mem_variablesOf_iff exact').mp mem, rfl⟩
  · rintro ⟨x, part, rfl⟩
    exact ⟨_, (CompiledTerm.mem_variablesOf_iff exact').mpr part, rfl⟩

theorem Realizes.capture (exact' : a.Exact t) {m m' : Machine} {known : Set Register}
    (realizes : Realizes a m known m') :
    m'.capture (CompiledTerm.variablesOf t a) = .ok (found a t m') := by
  refine capture_eq fun pair mem => ?_
  obtain ⟨name, x⟩ := pair
  exact realizes.held _ ((CompiledTerm.mem_variablesOf_iff exact').mp mem)

theorem Realizes.exists_found (exact' : a.Exact t) {m m' : Machine} {known : Set Register}
    (realizes : Realizes a m known m') {name : String} (occurs : name ∈ t.vars) :
    ∃ b, (name, some b) ∈ found a t m' := by
  obtain ⟨x, part, _⟩ := CompiledTerm.exists_part exact' occurs
  obtain ⟨b, held⟩ := realizes.held _ part
  exact ⟨b, (mem_found_iff exact').mpr ⟨x, part, held⟩⟩

theorem Realizes.lookup (exact' : a.Exact t) {m m' : Machine} {known : Set Register}
    (realizes : Realizes a m known m') {name : String} (occurs : name ∈ t.vars) :
    ∃ b, (found a t m').lookup name = some (some b) := by
  obtain ⟨b, mem⟩ := realizes.exists_found exact' occurs
  exact ⟨b, lookup_of_nodup (nodup_found exact' m') mem⟩

theorem Realizes.eval_found (exact' : a.Exact t) {m m' : Machine} {known : Set Register}
    (realizes : Realizes a m known m') {τ : Type} [Trees τ] {σ : Address → τ}
    (sol : m'.heap.Solution σ) {θ : String → τ}
    (values : ∀ name b, (name, some b) ∈ found a t m' → θ name = σ b) :
    m'.value σ 0 = Term.eval θ t := by
  refine realizes.root exact' sol fun x name part => ?_
  obtain ⟨b, held⟩ := realizes.held _ part
  rw [Node.register] at held
  rw [value_of_held held, values name b ((mem_found_iff exact').mpr ⟨x, part, held⟩)]

end Machine

end TermMachine
