import TermMachine.Proofs.Heap.Change
import TermMachine.Proofs.Heap.Reification

/-! # Answers as substitutions

An answer replaces each variable by the term that is read back from its address. An unbound variable
of the heap is named after the first of the variables whose chain of references ends there, if there
is one.
-/

namespace TermMachine

theorem lookup_map {α β : Type} (f : String × α → β) (pairs : List (String × α)) (name : String) :
    (pairs.map fun pair => (pair.1, f pair)).lookup name =
      (pairs.lookup name).map fun x => f (name, x) := by
  induction pairs with
  | nil => rfl
  | cons pair pairs ih =>
      rw [List.map_cons, List.lookup_cons, List.lookup_cons, ih]
      by_cases same : name = pair.1
      · subst same
        simp
      · simp [beq_false_of_ne same]

theorem lookup_of_nodup {α : Type} {pairs : List (String × α)} (nodup : (pairs.map Prod.fst).Nodup)
    {name : String} {x : α} (mem : (name, x) ∈ pairs) : pairs.lookup name = some x := by
  induction pairs with
  | nil => cases mem
  | cons pair pairs ih =>
      rw [List.map_cons, List.nodup_cons] at nodup
      rcases List.mem_cons.mp mem with rfl | mem
      · simp
      · have other : name ≠ pair.1 := by
          intro same
          exact nodup.1 (List.mem_map.mpr ⟨_, mem, same⟩)
        rw [List.lookup_cons, beq_false_of_ne other]
        exact ih nodup.2 mem

/-! ## Names -/

def Heap.identity (h : Heap) (a : Address) : Option Identity :=
  match h.inspect a with
  | .ok (b, v) => some (.of b v)
  | .error _ => none

theorem Heap.identity_eq_unbound_iff {h : Heap} {a b : Address} :
    h.identity a = some (.unbound b) ↔ h.Unbound a b := by
  rw [identity, ← inspect_eq_unbound_iff]
  constructor
  · intro found
    split at found
    · next c v inspected =>
        cases v with
        | unbound =>
            obtain rfl : c = b := Identity.unbound.inj (Option.some.inj found)
            exact inspected
        | compound s first => cases found
    · cases found
  · intro inspected
    rw [inspected]
    rfl

theorem Naming.lookup_add (names : Naming) (i j : Identity) (name : String) :
    (names.add i name).lookup j =
      (names.lookup j).or (if i = j then some name else none) := by
  by_cases same : i = j
  · subst same
    rw [if_pos rfl, add]
    split
    · next found => rw [found, Option.some_or]
    · next none => simp [List.lookup_append, none]
  · rw [if_neg same, Option.or_none, add]
    split
    · rfl
    · simp [List.lookup_append, List.lookup_cons, beq_false_of_ne (Ne.symm same)]

namespace Answer

variable {h : Heap} {vars : List (String × Option Address)}

theorem firstOfEach_of_nodup {α : Type} {pairs : List (String × α)}
    (nodup : (pairs.map Prod.fst).Nodup) : firstOfEach pairs = pairs := by
  induction pairs with
  | nil => rfl
  | cons pair pairs ih =>
      rw [List.map_cons, List.nodup_cons] at nodup
      rw [firstOfEach, ih nodup.2, List.filter_eq_self.mpr]
      intro other mem
      have different : other.1 ≠ pair.1 := by
        intro same
        exact nodup.1 (same ▸ List.mem_map_of_mem mem)
      exact bne_iff_ne.mpr different

theorem mem_of_mem_firstOfEach {α : Type} {pairs : List (String × α)} {pair : String × α}
    (mem : pair ∈ firstOfEach pairs) : pair ∈ pairs := by
  induction pairs with
  | nil => cases mem
  | cons first pairs ih =>
      rcases List.mem_cons.mp mem with rfl | mem
      · exact List.mem_cons_self
      · exact List.mem_cons_of_mem _ (ih (List.mem_of_mem_filter mem))

theorem mem_names_firstOfEach {α : Type} {pairs : List (String × α)} {name : String} :
    name ∈ (firstOfEach pairs).map Prod.fst ↔ name ∈ pairs.map Prod.fst := by
  induction pairs with
  | nil => rfl
  | cons pair pairs ih =>
      simp only [firstOfEach, List.map_cons, List.mem_cons, ← ih, List.mem_map, List.mem_filter]
      by_cases same : name = pair.1
      · simp [same]
      · simp only [same, false_or]
        constructor
        · rintro ⟨other, ⟨listed, _⟩, rfl⟩
          exact ⟨other, listed, rfl⟩
        · rintro ⟨other, listed, rfl⟩
          exact ⟨other, ⟨listed, bne_iff_ne.mpr same⟩, rfl⟩

def standsFor (h : Heap) (i : Identity) (pair : String × Option Address) : Option String :=
  if pair.2.bind h.identity = some i then some pair.1 else none

/-- An identity that has no name gets that of the first variable that stands for it. -/
theorem lookup_of_nameAll {names names' : Naming} (named : nameAll h names vars = .ok names')
    (i : Identity) : names'.lookup i = (names.lookup i).or (vars.findSome? (standsFor h i)) := by
  induction vars generalizing names with
  | nil =>
      cases named
      exact (Option.or_none ..).symm
  | cons pair vars ih =>
      obtain ⟨name, slot⟩ := pair
      cases slot with
      | none => exact ih named
      | some a =>
          unfold nameAll at named
          split at named
          · cases named
          · next b v inspected =>
              have identified : h.identity a = some (.of b v) := by
                rw [Heap.identity, inspected]
              rw [ih named, Naming.lookup_add, Option.or_assoc, List.findSome?_cons]
              refine congrArg (Option.or _) ?_
              simp only [standsFor, Option.bind_some, identified, Option.some.injEq]
              by_cases same : Identity.of b v = i
              · rw [if_pos same]
                rfl
              · rw [if_neg same]
                rfl

/-- Names can be given if all variables lead to terms. -/
theorem nameAll_ok (wf : h.WellFormed)
    (terms : ∀ name a, (name, some a) ∈ vars → h.IsTerm a) (names : Naming) :
    ∃ names', nameAll h names vars = .ok names' ∧
      ∀ i, names'.lookup i = (names.lookup i).or (vars.findSome? (standsFor h i)) := by
  have total : ∃ names', nameAll h names vars = .ok names' := by
    induction vars generalizing names with
    | nil => exact ⟨names, rfl⟩
    | cons pair vars ih =>
        have rest (names : Naming) := ih (fun name a mem => terms name a (.tail _ mem)) names
        obtain ⟨name, slot⟩ := pair
        cases slot with
        | none => exact rest names
        | some a =>
            obtain ⟨b, v, inspected⟩ : ∃ b v, h.inspect a = .ok (b, v) := by
              rcases wf.value (terms name a (.head _)) with ⟨b, hb⟩ | ⟨s, p, hp⟩
              · exact ⟨b, _, Heap.inspect_eq_unbound_iff.mpr hb⟩
              · obtain ⟨b, _, _, inspected⟩ := hp.inspect
                exact ⟨b, _, inspected⟩
            rw [nameAll, inspected]
            exact rest (names.add (.of b v) name)
  obtain ⟨names', named⟩ := total
  exact ⟨names', named, lookup_of_nameAll named⟩

/-- The name of an unbound variable is that of a variable that ends there. -/
theorem exists_name {names : Naming}
    (looked : ∀ i, names.lookup i = vars.findSome? (standsFor h i)) {name : String} {a b : Address}
    (mem : (name, some a) ∈ vars) (hu : h.Unbound a b) :
    ∃ name' a', (name', some a') ∈ vars ∧ h.Unbound a' b ∧ names.name (.unbound b) = name' := by
  have stands : standsFor h (.unbound b) (name, some a) = some name :=
    if_pos (Heap.identity_eq_unbound_iff.mpr hu)
  have some' : (vars.findSome? (standsFor h (.unbound b))).isSome := by
    rw [List.findSome?_isSome_iff]
    exact ⟨_, mem, by rw [stands]; rfl⟩
  obtain ⟨name', first⟩ := Option.isSome_iff_exists.mp some'
  obtain ⟨⟨v, slot⟩, mem', stands'⟩ := List.exists_of_findSome?_eq_some first
  rw [standsFor, Option.ite_none_right_eq_some] at stands'
  obtain ⟨identified, named⟩ := stands'
  cases slot with
  | none => cases identified
  | some a' =>
      obtain rfl : v = name' := Option.some.inj named
      refine ⟨v, a', mem', Heap.identity_eq_unbound_iff.mp identified, ?_⟩
      rw [Naming.name, looked, first, Option.getD_some]

/-! ## Values -/

def substitution (answer : Answer) (name : String) : Term :=
  (answer.bindings.lookup name).getD (.var name)

/-- The value of a variable, if the terms of the heap can be read back. -/
def reading (h : Heap) (names : Naming) : String × Option Address → Term
  | (name, none) => .var name
  | (_, some a) => h.reified names a

/-- There is an answer if the heap has a solution in terms and no variable is given twice. It says
of each variable what is read back from its address. -/
theorem exists_values (wf : h.WellFormed) {σ : Address → Term} (sol : h.Solution σ)
    (nodup : (vars.map Prod.fst).Nodup)
    (terms : ∀ name a, (name, some a) ∈ vars → h.IsTerm a) :
    ∃ (answer : Answer) (names : Naming), ofVariables h vars = .ok answer ∧
      (∀ i, names.lookup i = vars.findSome? (standsFor h i)) ∧
      ∀ name a, (name, some a) ∈ vars → answer.substitution name = h.reified names a := by
  obtain ⟨names, named, looked⟩ := nameAll_ok wf terms []
  have values : collect (value h names) vars =
      .ok (vars.map fun pair => (pair.1, reading h names pair)) := by
    refine collect_eq_ok_iff.mpr ?_
    rw [List.map_map]
    refine List.map_congr_left fun pair mem => ?_
    obtain ⟨name, slot⟩ := pair
    cases slot with
    | none => rfl
    | some a =>
        have read := @Heap.WellFormed.reify_eq _ _ names wf sol a (terms name a mem)
        simp only [value, read, reading, Function.comp_apply]
  refine ⟨⟨vars.map fun pair => (pair.1, reading h names pair)⟩, names, ?_, looked, ?_⟩
  · simp only [ofVariables, firstOfEach_of_nodup nodup, named, values]
  · intro name a mem
    rw [substitution, lookup_map, lookup_of_nodup nodup mem]
    rfl

/-- If an answer says something of all unbound variables, then every solution has the right values
for their names. -/
theorem exists_answer (wf : h.WellFormed) {σ : Address → Term} (sol : h.Solution σ)
    (nodup : (vars.map Prod.fst).Nodup) (terms : ∀ name a, (name, some a) ∈ vars → h.IsTerm a)
    (rooted : h.Rooted {a | ∃ name, (name, some a) ∈ vars}) :
    ∃ answer names, ofVariables h vars = .ok answer ∧
      (∀ name a, (name, some a) ∈ vars → answer.substitution name = h.reified names a) ∧
      ∀ (ψ : Address → Term) (t : String → Term), h.Solution ψ →
        (∀ name a, (name, some a) ∈ vars → t name = ψ a) →
        ∀ b : Address, h.cells[b]? = some (.ref b) → t (names.name (.unbound b)) = ψ b := by
  obtain ⟨answer, names, made, looked, values⟩ := exists_values wf sol nodup terms
  refine ⟨answer, names, made, values, ?_⟩
  intro ψ t solution same b cell
  obtain ⟨a, ⟨name, mem⟩, ends⟩ := rooted b cell
  obtain ⟨name', a', mem', hu, eq⟩ := exists_name looked mem ⟨ends, cell⟩
  rw [eq, same name' a' mem', solution.endsAt hu.1]

/-- There is an answer whatever the heap holds, be it structures that contain themselves. -/
theorem exists_ofVariables (wf : h.WellFormed)
    (terms : ∀ name a, (name, some a) ∈ vars → h.IsTerm a) :
    ∃ answer, ofVariables h vars = .ok answer := by
  have terms' : ∀ name a, (name, some a) ∈ firstOfEach vars → h.IsTerm a :=
    fun name a mem => terms name a (mem_of_mem_firstOfEach mem)
  obtain ⟨names, named, _⟩ := nameAll_ok wf terms' []
  obtain ⟨bindings, values⟩ : ∃ bindings,
      collect (value h names) (firstOfEach vars) = .ok bindings := by
    refine exists_collect fun pair mem => ?_
    obtain ⟨name, slot⟩ := pair
    cases slot with
    | none => exact ⟨_, rfl⟩
    | some a =>
        obtain ⟨t, read⟩ := @Heap.WellFormed.exists_reify _ names wf a (terms' name a mem)
        exact ⟨(name, t), by simp only [value, read]⟩
  exact ⟨⟨bindings⟩, by simp only [ofVariables, named, values]⟩

end Answer

end TermMachine
