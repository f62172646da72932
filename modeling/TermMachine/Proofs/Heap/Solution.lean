import TermMachine.Proofs.Heap.Unification
import TermMachine.Proofs.Tree

/-! # Solutions of a heap

A heap is a system of equations between trees, one for every cell. A solution gives a tree to every
address so that all cells agree: a reference stands for the same tree as its target, and a structure
for the node with its name and the trees at its arguments. What is done to a heap is known by what
it does to the solutions, and no notion of a cyclic term is needed for it. A binding adds one
equation; a unification adds the equations it was asked for, or there are none left that satisfy
them.
-/

namespace TermMachine

namespace Heap

variable {τ : Type}

def treesAt (σ : Address → τ) (first : Address) (count : Nat) : List τ :=
  (List.range' first count).map σ

theorem length_treesAt (σ : Address → τ) (first : Address) (count : Nat) :
    (treesAt σ first count).length = count := by
  simp [treesAt]

theorem getElem_treesAt (σ : Address → τ) {first count i : Nat}
    (hi : i < (treesAt σ first count).length) : (treesAt σ first count)[i] = σ (first + i) := by
  simp [treesAt]

theorem treesAt_congr {σ σ' : Address → τ} {first : Address} {count : Nat}
    (same : ∀ i < count, σ' (first + i) = σ (first + i)) :
    treesAt σ' first count = treesAt σ first count := by
  refine List.map_congr_left fun a mem => ?_
  obtain ⟨i, hi, rfl⟩ := List.mem_range'.mp mem
  rw [Nat.one_mul]
  exact same i hi

def Equal (σ : Address → τ) (work : List (Address × Address)) : Prop :=
  ∀ pair ∈ work, σ pair.1 = σ pair.2

theorem equal_cons_iff {σ : Address → τ} {a b : Address} {work : List (Address × Address)} :
    Equal σ ((a, b) :: work) ↔ σ a = σ b ∧ Equal σ work := by
  simp [Equal]

theorem equal_append_iff {σ : Address → τ} {work work' : List (Address × Address)} :
    Equal σ (work ++ work') ↔ Equal σ work ∧ Equal σ work' := by
  simp only [Equal, List.forall_mem_append]

theorem equal_zip_iff {σ : Address → τ} {as bs : List Address} (len : as.length = bs.length) :
    Equal σ (as.zip bs) ↔ as.map σ = bs.map σ := by
  induction as generalizing bs with
  | nil =>
      cases bs with
      | nil => simp [Equal]
      | cons b bs => simp at len
  | cons a as ih =>
      cases bs with
      | nil => simp at len
      | cons b bs =>
          simp only [List.length_cons, Nat.add_right_cancel_iff] at len
          simp only [List.zip_cons_cons, equal_cons_iff, ih len, List.map_cons, List.cons.injEq]

/-- How much work there is at most, if all trees are finite. -/
def weight (size : τ → Nat) (σ : Address → τ) (work : List (Address × Address)) : Nat :=
  (work.map fun pair => size (σ pair.1)).sum

theorem weight_cons (size : τ → Nat) (σ : Address → τ) (a b : Address)
    (work : List (Address × Address)) :
    weight size σ ((a, b) :: work) = size (σ a) + weight size σ work := by
  simp [weight]

theorem weight_append (size : τ → Nat) (σ : Address → τ) (work work' : List (Address × Address)) :
    weight size σ (work ++ work') = weight size σ work + weight size σ work' := by
  simp [weight]

theorem weight_zip (size : τ → Nat) (σ : Address → τ) {as bs : List Address}
    (len : as.length = bs.length) :
    weight size σ (as.zip bs) = ((as.map σ).map size).sum := by
  induction as generalizing bs with
  | nil => simp [weight]
  | cons a as ih =>
      cases bs with
      | nil => simp at len
      | cons b bs =>
          simp only [List.length_cons, Nat.add_right_cancel_iff] at len
          simp only [List.zip_cons_cons, weight_cons, ih len, List.map_cons, List.sum_cons]

variable [Trees τ]

/-- The tree at `a` is what a cell there says. -/
def Agrees (h : Heap) (σ : Address → τ) (a : Address) : Cell → Prop
  | .ref r => σ a = σ r
  | .str p => ∀ s, h.cells[p]? = some (.symbol s) →
      σ a = Trees.node s.name (treesAt σ (p + 1) s.arity)
  | .symbol _ => True

/-- Trees for all addresses with which every cell agrees. -/
def Solution (h : Heap) (σ : Address → τ) : Prop :=
  ∀ (a : Address) cell, h.cells[a]? = some cell → h.Agrees σ a cell

theorem Solution.endsAt {h : Heap} {σ : Address → τ} (sol : h.Solution σ) {a b : Address}
    (hab : h.EndsAt a b) : σ a = σ b := by
  induction hab with
  | unbound _ => rfl
  | compound _ => rfl
  | follow cell _ _ ih => exact (sol _ _ cell).trans ih

theorem Solution.compound {h : Heap} {σ : Address → τ} (sol : h.Solution σ) {a p : Address}
    {s : Symbol} (hc : h.Compound a s p) :
    σ a = Trees.node s.name (treesAt σ (p + 1) s.arity) := by
  obtain ⟨b, hab, cell, symbol⟩ := hc
  exact (sol.endsAt hab).trans (sol b _ cell s symbol)

/-- Trees that depend on the term at an address only, and are right for structures, are a
solution. -/
theorem Readable.solution {h : Heap} (hr : h.Readable) {σ leaf : Address → τ}
    (unbound : ∀ {a b : Address}, h.Unbound a b → σ a = leaf b)
    (compound : ∀ {a p : Address} {s : Symbol}, h.Compound a s p →
      σ a = Trees.node s.name (treesAt σ (p + 1) s.arity)) : h.Solution σ := by
  intro a cell hc
  cases cell with
  | symbol s => trivial
  | str p => exact fun s symbol => compound ⟨a, .compound hc, hc, symbol⟩
  | ref r =>
      show σ a = σ r
      by_cases bound : r = a
      · rw [bound]
      · rcases hr.value (hr.ref hc) with ⟨b, hb⟩ | ⟨s, p, hp⟩
        · rw [unbound hb, unbound ⟨.follow hc bound hb.1, hb.2⟩]
        · obtain ⟨b, hab, rest⟩ := hp
          rw [compound ⟨b, hab, rest⟩, compound ⟨b, .follow hc bound hab, rest⟩]

/-- Beyond the top of the heap a solution is free. -/
theorem Solution.congr {h : Heap} (wf : h.WellFormed) {σ σ' : Address → τ} (sol : h.Solution σ)
    (same : ∀ a < h.top, σ' a = σ a) : h.Solution σ' := by
  intro a cell hc
  have here := same a (lt_top_of_cell hc)
  cases cell with
  | symbol s => trivial
  | ref r =>
      show σ' a = σ' r
      rw [here, same r (wf.ref hc).lt_top]
      exact sol a _ hc
  | str p =>
      intro s symbol
      rw [here, sol a _ hc s symbol]
      refine congrArg (Trees.node s.name) (treesAt_congr fun i hi => ?_).symm
      exact same _ (wf.arguments symbol i hi).lt_top

/-- The trees that a solution gives below `top`, then a node, which takes two cells, and then its
subtrees. -/
def extended (σ : Address → τ) (top : Address) (name : String) (ts : List τ) (a : Address) : τ :=
  if a < top then σ a
  else if a < top + 2 then Trees.node name ts
  else ts.getD (a - (top + 2)) (Trees.node name ts)

theorem extended_of_lt {σ : Address → τ} {top a : Address} {name : String} {ts : List τ}
    (lt : a < top) : extended σ top name ts a = σ a := if_pos lt

theorem extended_top (σ : Address → τ) (top : Address) (name : String) (ts : List τ) :
    extended σ top name ts top = Trees.node name ts := by
  simp [extended]

theorem treesAt_extended (σ : Address → τ) (top : Address) (name : String) (ts : List τ) :
    treesAt (extended σ top name ts) (top + 2) ts.length = ts := by
  refine List.ext_getElem (length_treesAt ..) fun i _ hi => ?_
  have beyond' : ¬top + 2 + i < top + 2 := Nat.not_lt.mpr (Nat.le_add_right ..)
  have beyond : ¬top + 2 + i < top := fun lt => beyond' (Nat.lt_add_right 2 lt)
  simp only [treesAt, List.getElem_map, List.getElem_range', Nat.one_mul, extended, beyond, beyond',
    if_false, Nat.add_sub_cancel_left]
  simp [hi]

/-! ## Changes -/

theorem Solution.of_added {h : Heap} {cell : Cell} {σ : Address → τ}
    (sol : (h.added cell).Solution σ) : h.Solution σ := by
  intro a old hc
  have here := sol a old (cell_added hc cell)
  cases old with
  | symbol s => trivial
  | ref r => exact here
  | str p => exact fun s symbol => here s (cell_added symbol cell)

/-- What a cell that fits says does not depend on the cells that are added. -/
theorem Fits.agrees_added {h : Heap} {cell new : Cell} {σ : Address → τ} {a : Address}
    (fits : h.Fits cell) (agrees : h.Agrees σ a cell) : (h.added new).Agrees σ a cell := by
  cases cell with
  | symbol s => trivial
  | ref r => exact agrees
  | str p =>
      intro s symbol
      obtain ⟨t, ht⟩ := fits
      have same := symbol.symm.trans (cell_added ht new)
      simp only [Option.some.injEq, Cell.symbol.injEq] at same
      exact same ▸ agrees t ht

theorem Linked.solution_added {h : Heap} (hl : h.Linked) {cell : Cell} (fits : h.Fits cell)
    {σ : Address → τ} (sol : h.Solution σ) (agrees : h.Agrees σ h.top cell) :
    (h.added cell).Solution σ := by
  intro a cell' hc
  rcases cell_of_added hc with ⟨rfl, rfl⟩ | old
  · exact fits.agrees_added agrees
  · exact (hl.fits old).agrees_added (sol a cell' old)

/-- A new variable may stand for any tree. -/
theorem Linked.solution_variable_iff {h : Heap} (hl : h.Linked) {σ : Address → τ} :
    (h.added (.ref h.top)).Solution σ ↔ h.Solution σ := by
  refine ⟨Solution.of_added, fun sol => ?_⟩
  have fits : h.Fits (.ref h.top) := .inl rfl
  exact hl.solution_added fits sol rfl

/-- A copy stands for the same tree. -/
theorem Linked.solution_copy_iff {h : Heap} (hl : h.Linked) {a : Address} {cell : Cell}
    (hc : h.cells[a]? = some cell) (term : h.IsTerm a) {σ : Address → τ} :
    (h.added cell).Solution σ ↔ h.Solution σ ∧ σ a = σ h.top := by
  have fits := hl.fits hc
  -- what the cell says at `a`, it says at the top
  have moved (sol : h.Solution σ) : h.Agrees σ h.top cell ↔ σ a = σ h.top := by
    have here := sol a cell hc
    cases cell with
    | symbol s => exact absurd hc term.not_symbol
    | ref r =>
        have here : σ a = σ r := here
        show σ h.top = σ r ↔ _
        rw [← here, eq_comm]
    | str p =>
        obtain ⟨s, hs⟩ := fits
        rw [here s hs]
        constructor
        · exact fun agrees => (agrees s hs).symm
        · intro same t ht
          obtain rfl : s = t := by simpa [hs] using ht
          exact same.symm
  constructor
  · intro sol
    have old := sol.of_added
    refine ⟨old, (moved old).mp ?_⟩
    have here := sol h.top cell (cells_added_top h cell)
    cases cell with
    | symbol s => trivial
    | ref r => exact here
    | str p => exact fun s symbol => here s (cell_added symbol _)
  · exact fun ⟨sol, same⟩ => hl.solution_added fits sol ((moved sol).mpr same)

/-- The start of a structure stands for a node over whatever will follow. -/
theorem Linked.solution_opened_iff {h : Heap} (hl : h.Linked) {s : Symbol} {σ : Address → τ} :
    (h.opened s).Solution σ ↔
      h.Solution σ ∧ σ h.top = Trees.node s.name (treesAt σ (h.top + 2) s.arity) := by
  constructor
  · intro sol
    refine ⟨Solution.of_added (Solution.of_added sol), ?_⟩
    exact sol h.top _ (cells_opened_top h s) s (cells_opened_symbol h s)
  · rintro ⟨sol, here⟩ a cell hc
    rcases cell_of_opened hc with ⟨_, rfl⟩ | ⟨rfl, rfl⟩ | old
    · trivial
    · intro t symbol
      obtain rfl : s = t := by simpa [cells_opened_symbol] using symbol
      exact here
    · cases cell with
      | symbol t => trivial
      | ref r => exact sol a _ old
      | str p =>
          intro t symbol
          obtain ⟨u, hu⟩ := hl.str old
          obtain rfl : u = t := by simpa [cell_opened hu s] using symbol
          exact sol a _ old u hu

/-- Whatever the arguments are to be, a solution can be extended to a structure that is started. -/
theorem Solution.opened {h : Heap} (hl : h.Linked) (wf : h.WellFormed) {σ : Address → τ}
    (sol : h.Solution σ) {s : Symbol} {ts : List τ} (len : ts.length = s.arity) :
    (h.opened s).Solution (extended σ h.top s.name ts) ∧
      treesAt (extended σ h.top s.name ts) (h.top + 2) s.arity = ts := by
  have filled : treesAt (extended σ h.top s.name ts) (h.top + 2) s.arity = ts := by
    rw [← len]
    exact treesAt_extended σ h.top s.name ts
  have below : ∀ a < h.top, extended σ h.top s.name ts a = σ a := fun a lt => extended_of_lt lt
  have old := sol.congr wf below
  refine ⟨hl.solution_opened_iff.mpr ⟨old, ?_⟩, filled⟩
  rw [filled, extended_top]

/-- A binding adds one equation. -/
theorem Binding.solution_iff {h : Heap} {source target : Address} (hb : h.Binding source target)
    {σ : Address → τ} :
    (h.assign source target).Solution σ ↔ h.Solution σ ∧ σ source = σ target := by
  constructor
  · intro sol
    refine ⟨fun a cell hc => ?_, sol source _ hb.cells_source⟩
    by_cases same : a = source
    · subst same
      obtain rfl : Cell.ref a = cell := by simpa [hb.unbound] using hc
      rfl
    · have here := sol a cell ((hb.cells_of_ne same).trans hc)
      cases cell with
      | symbol s => trivial
      | ref r => exact here
      | str p => exact fun s symbol => here s (hb.symbol_iff.mpr symbol)
  · rintro ⟨sol, same⟩ a cell hc
    cases cell with
    | symbol s => trivial
    | ref r =>
        rcases hb.ref_iff.mp hc with ⟨rfl, rfl⟩ | ⟨_, old⟩
        · exact same
        · exact sol a _ old
    | str p => exact fun s symbol => sol a _ (hb.str_iff.mp hc) s (hb.symbol_iff.mp symbol)

/-! ## Unification -/

/-- Two structures stand for one tree if they have one symbol and equal arguments. -/
theorem Solution.compound_eq_iff {h : Heap} {σ : Address → τ} (sol : h.Solution σ)
    {a b p q : Address} {s t : Symbol} (ha : h.Compound a s p) (hb : h.Compound b t q) :
    σ a = σ b ↔ s = t ∧ treesAt σ (p + 1) s.arity = treesAt σ (q + 1) t.arity := by
  rw [sol.compound ha, sol.compound hb, Trees.node_eq_iff]
  constructor
  · rintro ⟨names, below⟩
    have arities := congrArg List.length below
    rw [length_treesAt, length_treesAt] at arities
    obtain ⟨name, arity⟩ := s
    obtain ⟨name', arity'⟩ := t
    exact ⟨by simp_all, below⟩
  · rintro ⟨rfl, below⟩
    exact ⟨rfl, below⟩

/-- Working off a pair keeps the solutions that the work is about. -/
theorem PairStep.solution_iff {h h' : Heap} {a b : Address} {work work' : List (Address × Address)}
    (step : PairStep h a b work (.next h' work')) (σ : Address → τ) :
    h'.Solution σ ∧ Equal σ work' ↔ h.Solution σ ∧ Equal σ ((a, b) :: work) := by
  rw [equal_cons_iff]
  cases step with
  | same ha hb =>
      refine and_congr_right fun sol => (and_iff_right ?_).symm
      rw [sol.endsAt ha, sol.endsAt hb]
  | shared ha hb =>
      refine and_congr_right fun sol => (and_iff_right ?_).symm
      rw [sol.compound ha, sol.compound hb]
  | descend ha hb _ =>
      refine and_congr_right fun sol => ?_
      rw [equal_append_iff, equal_zip_iff (by simp), sol.compound_eq_iff ha hb]
      simp [treesAt]
  | bind binding ends =>
      rw [binding.solution_iff, and_assoc]
      refine and_congr_right fun sol => and_congr_left' ?_
      rcases ends with ⟨ha, hb⟩ | ⟨ha, hb⟩
      · rw [sol.endsAt ha, sol.endsAt hb]
      · rw [sol.endsAt ha, sol.endsAt hb, eq_comm]

/-- With finite trees there is less work after every step. -/
theorem PairStep.weight_lt {h h' : Heap} {a b : Address} {work work' : List (Address × Address)}
    (step : PairStep h a b work (.next h' work')) {size : τ → Nat} (hs : Trees.IsSize size)
    {σ : Address → τ} (sol : h.Solution σ) :
    weight size σ work' < weight size σ ((a, b) :: work) := by
  have pos := hs.pos (σ a)
  rw [weight_cons]
  cases step with
  | same _ _ => omega
  | shared _ _ => omega
  | bind _ _ => omega
  | @descend s p q ha hb _ =>
      have node := hs.node s.name (treesAt σ (p + 1) s.arity)
      rw [weight_append, weight_zip size σ (by simp), sol.compound ha]
      show ((treesAt σ (p + 1) s.arity).map size).sum + _ < _
      omega

/-- How a unification ends, by what can solve it. -/
inductive Decided (h : Heap) (work : List (Address × Address)) (fuel : Nat) : Unification → Prop
  | unified {h' : Heap}
      (exact : ∀ {τ : Type} [Trees τ] (σ : Address → τ),
        h'.Solution σ ↔ h.Solution σ ∧ Equal σ work) : Decided h work fuel (.unified h')
  | clash {h' : Heap}
      (unsolvable : ∀ {τ : Type} [Trees τ] (σ : Address → τ), h.Solution σ → ¬Equal σ work) :
      Decided h work fuel (.clash h')
  /-- Only large trees could make the pairs equal. -/
  | unfinished {h' : Heap} {work' : List (Address × Address)}
      (large : ∀ {τ : Type} [Trees τ] {size : τ → Nat} (_ : Trees.IsSize size) (σ : Address → τ),
        h.Solution σ → Equal σ work → fuel < weight size σ work) :
      Decided h work fuel (.unfinished h' work')

theorem unifyAll_decided {h : Heap} {work : List (Address × Address)} (hr : h.Readable)
    (hw : h.TermPairs work) (fuel : Nat) : Decided h work fuel (unifyAll fuel h work) := by
  induction fuel generalizing h work with
  | zero =>
      cases work with
      | nil => exact .unified fun σ => by simp [Equal]
      | cons pair work =>
          refine .unfinished fun hs σ _ _ => ?_
          have pos := hs.pos (σ pair.1)
          simp only [weight, List.map_cons, List.sum_cons]
          omega
  | succ fuel ih =>
      cases work with
      | nil => exact .unified fun σ => by simp [Equal]
      | cons pair work =>
          have handled := hw.handled hr
          simp only [unifyAll]
          generalize h.unifyPair pair.1 pair.2 work = outcome at handled
          cases handled with
          | clash step =>
              cases step with
              | clash hp hq differ =>
                  refine .clash fun σ sol equal => ?_
                  exact differ ((sol.compound_eq_iff hp hq).mp (equal_cons_iff.mp equal).1).1
          | @next h' work' step _ readable pairs =>
              have rest := ih readable pairs
              show Decided h _ _ (unifyAll fuel h' work')
              generalize unifyAll fuel h' work' = ending at rest
              cases rest with
              | unified exact' => exact .unified fun σ => (exact' σ).trans (step.solution_iff σ)
              | clash unsolvable =>
                  refine .clash fun σ sol equal => ?_
                  obtain ⟨sol', equal'⟩ := (step.solution_iff σ).mpr ⟨sol, equal⟩
                  exact unsolvable σ sol' equal'
              | unfinished large =>
                  refine .unfinished fun hs σ sol equal => ?_
                  obtain ⟨sol', equal'⟩ := (step.solution_iff σ).mpr ⟨sol, equal⟩
                  have more := large hs σ sol' equal'
                  exact Nat.lt_of_le_of_lt more (step.weight_lt hs sol)

section OnePair

variable {h h' : Heap} {a b : Address} {fuel : Nat}

/-- A success adds the equation between the two terms. -/
theorem unify_unified (hr : h.Readable) (pair : h.TermPairs [(a, b)])
    (ended : unify fuel h a b = .unified h') (σ : Address → τ) :
    h'.Solution σ ↔ h.Solution σ ∧ σ a = σ b := by
  have decided := unifyAll_decided hr pair fuel
  rw [unify] at ended
  rw [ended] at decided
  cases decided with
  | unified exact' => simpa [Equal] using exact' σ

/-- A failure says that the equation cannot be satisfied. -/
theorem unify_clash (hr : h.Readable) (pair : h.TermPairs [(a, b)])
    (ended : unify fuel h a b = .clash h') {σ : Address → τ} (sol : h.Solution σ) : σ a ≠ σ b := by
  have decided := unifyAll_decided hr pair fuel
  rw [unify] at ended
  rw [ended] at decided
  cases decided with
  | clash unsolvable => simpa [Equal] using unsolvable σ sol

/-- If the work was not enough, only large trees could satisfy the equation. -/
theorem unify_unfinished (hr : h.Readable) (pair : h.TermPairs [(a, b)])
    {work : List (Address × Address)} (ended : unify fuel h a b = .unfinished h' work)
    {size : τ → Nat} (hs : Trees.IsSize size) {σ : Address → τ} (sol : h.Solution σ)
    (same : σ a = σ b) : fuel < size (σ a) := by
  have decided := unifyAll_decided hr pair fuel
  rw [unify] at ended
  rw [ended] at decided
  cases decided with
  | unfinished large => simpa [weight] using large hs σ sol (by simpa [Equal] using same)

end OnePair

end Heap

end TermMachine
