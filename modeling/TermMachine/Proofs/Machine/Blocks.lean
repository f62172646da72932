import TermMachine.Proofs.Machine.Execution

/-! # Executing blocks

Executing a block adds one equation to a machine: that of the application the block is for. The
solutions of the heap afterwards satisfy it, with the trees that the registers then stand for, and a
solution of the heap before can be extended to the new cells if it satisfies the equation. If the
block fails no solution does. The same is true of any number of blocks, so compiled code solves the
equations of its term.
-/

namespace TermMachine

/-- The cursor has `n` arguments in front of it, the first one at `q`. -/
inductive Cursor.Ahead (mode : Mode) (q : Address) : Nat → Cursor → Prop
  | none : Ahead mode q 0 .idle
  | some {v : Visit} {n : Nat} (same : v.mode = mode) (next : v.next = q)
      (left : v.index + (n + 1) = v.arguments.count) : Ahead mode q (n + 1) ⟨.some v⟩

theorem Cursor.Ahead.visit {mode : Mode} {q : Address} {n : Nat} {c : Cursor}
    (ahead : Cursor.Ahead mode q (n + 1) c) :
    ∃ v, c.visit? = .some v ∧ v.mode = mode ∧ v.next = q ∧
      v.index + (n + 1) = v.arguments.count := by
  cases ahead with
  | some same next left => exact ⟨_, rfl, same, next, left⟩

theorem Cursor.ahead_behind {v : Visit} {n : Nat} (left : v.index + (n + 1) = v.arguments.count) :
    Cursor.Ahead v.mode (v.next + 1) n (.behind v) := by
  cases n with
  | zero =>
      rw [Cursor.behind, if_pos left]
      exact .none
  | succ n =>
      have more : v.index + 1 ≠ v.arguments.count := by omega
      rw [Cursor.behind, if_neg more]
      exact .some rfl rfl (by simp only; omega)

theorem Cursor.ahead_along (mode : Mode) (q : Address) (n : Nat) :
    Cursor.Ahead mode q n (.along mode ⟨q, n⟩) := by
  cases n with
  | zero => exact .none
  | succ n => exact .some rfl rfl (Nat.zero_add _)

namespace Machine

section

variable {τ : Type}

def value (m : Machine) (σ : Address → τ) (x : Register) : τ :=
  σ ((m.registers.held x).getD 0)

theorem value_of_held {m : Machine} {x : Register} {a : Address}
    (held : m.registers.held x = some a) (σ : Address → τ) : m.value σ x = σ a := by
  rw [value, held, Option.getD_some]

/-- Trees for addresses and registers that go together, for the registers in `known`. -/
structure Reads [Trees τ] (m : Machine) (known : Set Register) (σ : Address → τ)
    (ρ : Register → τ) : Prop where
  solution : m.heap.Solution σ
  registers : ∀ y ∈ known, ρ y = m.value σ y

end

def targets (m : Machine) (known : Set Register) : Set Address :=
  {a | ∃ y ∈ known, m.registers.held y = some a}

/-- From `m` to `m'` registers were written, those in `known` before and those in `known'` then.
No solutions were added. -/
structure Extends (m : Machine) (known : Set Register) (m' : Machine) (known' : Set Register) :
    Prop where
  ready : m'.Ready
  grows : known ⊆ known'
  count : m'.registers.count = m.registers.count
  keeps : ∀ y ∈ known, m'.registers.held y = m.registers.held y
  holds : ∀ y ∈ known', ∃ a, m'.registers.held y = some a
  heap : m.heap.GrowsTo m'.heap
  rooted : ∀ {roots : Set Address}, m.heap.Rooted roots →
    m'.heap.Rooted (roots ∪ m'.targets known')
  sound : ∀ {τ : Type} [Trees τ] {σ : Address → τ}, m'.heap.Solution σ → m.heap.Solution σ

theorem Extends.refl {m : Machine} (ready : m.Ready) {known : Set Register}
    (holds : ∀ y ∈ known, ∃ a, m.registers.held y = some a) : m.Extends known m known where
  ready := ready
  grows := subset_rfl
  count := rfl
  keeps _ _ := rfl
  holds := holds
  heap := .refl _
  rooted := fun rooted => rooted.mono Set.subset_union_left
  sound := id

theorem targets_subset {m m' : Machine} {known known' : Set Register} (sub : known ⊆ known')
    (keeps : ∀ y ∈ known, m'.registers.held y = m.registers.held y) :
    m.targets known ⊆ m'.targets known' := by
  rintro a ⟨y, mem, held⟩
  exact ⟨y, sub mem, (keeps y mem).trans held⟩

theorem Extends.trans {m₁ m₂ m₃ : Machine} {known₁ known₂ known₃ : Set Register}
    (first : m₁.Extends known₁ m₂ known₂) (second : m₂.Extends known₂ m₃ known₃) :
    m₁.Extends known₁ m₃ known₃ where
  ready := second.ready
  grows := first.grows.trans second.grows
  count := second.count.trans first.count
  keeps y mem := (second.keeps y (first.grows mem)).trans (first.keeps y mem)
  holds := second.holds
  heap := first.heap.trans second.heap
  rooted := fun rooted => by
    refine (second.rooted (first.rooted rooted)).mono (Set.union_subset ?_ Set.subset_union_right)
    exact Set.union_subset_union_right _ (targets_subset second.grows second.keeps)
  sound := fun sol => first.sound (second.sound sol)

/-- The registers written before stand for what they stood for. -/
theorem Extends.value {m m' : Machine} {known known' : Set Register}
    (grown : m.Extends known m' known') {τ : Type} (σ : Address → τ) {y : Register}
    (mem : y ∈ known) : m'.value σ y = m.value σ y := by
  rw [Machine.value, Machine.value, grown.keeps y mem]

/-! ## Outcomes -/

/-- Work that ends in a machine with the property `P`, or fails because nothing is `Solvable`, or is
given up because only large trees would solve it. -/
inductive Leads (fuel count : Nat) (Solvable : ∀ (τ : Type) [Trees τ], (Register → τ) → Prop)
    (P : Machine → Prop) : Effect → Prop
  | done {m : Machine} (holds : P m) : Leads fuel count Solvable P (.done m)
  | failed {m : Machine}
      (unsolvable : ∀ {τ : Type} [Trees τ] {ρ : Register → τ}, ¬Solvable τ ρ) :
      Leads fuel count Solvable P (.failed m)
  | unfinished {m : Machine}
      (large : ∀ {τ : Type} [Trees τ] {size : τ → Nat} (_ : Trees.IsSize size) {ρ : Register → τ},
        Solvable τ ρ → ∃ y < count, fuel < size (ρ y)) :
      Leads fuel count Solvable P (.unfinished m)

theorem Leads.imp {fuel count : Nat} {S T : ∀ (τ : Type) [Trees τ], (Register → τ) → Prop}
    {P Q : Machine → Prop} {effect : Effect} (leads : Leads fuel count S P effect)
    (fewer : ∀ {τ : Type} [Trees τ] {ρ : Register → τ}, T τ ρ → S τ ρ)
    (weaker : ∀ {m}, P m → Q m) : Leads fuel count T Q effect := by
  cases leads with
  | done holds => exact .done (weaker holds)
  | failed unsolvable => exact .failed fun solvable => unsolvable (fewer solvable)
  | unfinished large => exact .unfinished fun hs _ solvable => large hs (fewer solvable)

theorem Leads.bind {fuel count : Nat} {S : ∀ (τ : Type) [Trees τ], (Register → τ) → Prop}
    {P Q : Machine → Prop} {effect : Effect} {next : Machine → Effect}
    (leads : Leads fuel count S P effect) (then' : ∀ m, P m → Leads fuel count S Q (next m)) :
    Leads fuel count S Q (effect.bind next) := by
  cases leads with
  | done holds => exact then' _ holds
  | failed unsolvable => exact .failed unsolvable
  | unfinished large => exact .unfinished large

/-! ## Arguments -/

/-- All arguments have been visited: those at `q` and behind it are what the registers stand for. -/
structure Visited (m : Machine) (known : Set Register) (q : Address) (xs : List Register)
    (m' : Machine) : Prop where
  grown : m.Extends known m' (known ∪ {y | y ∈ xs})
  idle : m'.cursor = .idle
  equation : ∀ {τ : Type} [Trees τ] {σ : Address → τ}, m'.heap.Solution σ →
    xs.map (m'.value σ) = Heap.treesAt σ q xs.length
  complete : ∀ {τ : Type} [Trees τ] {σ : Address → τ} {ρ : Register → τ}, m.Reads known σ ρ →
    xs.map ρ = Heap.treesAt σ q xs.length → m'.Reads (known ∪ {y | y ∈ xs}) σ ρ

theorem treesAt_succ {τ : Type} (σ : Address → τ) (q : Address) (n : Nat) :
    Heap.treesAt σ q (n + 1) = σ q :: Heap.treesAt σ (q + 1) n := by
  rw [Heap.treesAt, List.range'_succ, List.map_cons]
  rfl

theorem map_eq_treesAt_cons {τ : Type} {σ : Address → τ} {q : Address} {ρ : Register → τ}
    {x : Register} {xs : List Register} :
    (x :: xs).map ρ = Heap.treesAt σ q (x :: xs).length ↔
      ρ x = σ q ∧ xs.map ρ = Heap.treesAt σ (q + 1) xs.length := by
  rw [List.length_cons, treesAt_succ, List.map_cons, List.cons.injEq]

/-- Writing a new register keeps what the others hold. -/
theorem keeps_put {r : Registers} {known : Set Register} {x : Register} (lt : x < r.count)
    (fresh : x ∉ known) (a : Address) : ∀ y ∈ known, (r.put x a).held y = r.held y := by
  intro y mem
  have other : y ≠ x := by
    rintro rfl
    exact fresh mem
  exact Registers.held_put_of_ne lt a other

theorem holds_put {r : Registers} {known : Set Register} {x : Register} (lt : x < r.count)
    (fresh : x ∉ known) (holds : ∀ y ∈ known, ∃ b, r.held y = some b) (a : Address) :
    ∀ y ∈ insert x known, ∃ b, (r.put x a).held y = some b := by
  rintro y (rfl | mem)
  · exact ⟨a, Registers.held_put_self lt a⟩
  · obtain ⟨b, held⟩ := holds y mem
    exact ⟨b, (keeps_put lt fresh a y mem).trans held⟩

theorem Noted.extends {m m' : Machine} {v : Visit} {x : Register} (noted : m.Noted v x m')
    (lt : x < m.registers.count) {known : Set Register} (fresh : x ∉ known)
    (holds : ∀ y ∈ known, ∃ a, m.registers.held y = some a) :
    m.Extends known m' (insert x known) where
  ready := noted.ready
  grows := Set.subset_insert _ _
  count := by rw [noted.registers, Registers.count_put]
  keeps := noted.registers ▸ keeps_put lt fresh v.next
  holds := noted.registers ▸ holds_put lt fresh holds v.next
  heap := noted.heap
  rooted := fun rooted => by
    refine (noted.rooted rooted).mono (Set.insert_subset (.inr ?_) Set.subset_union_left)
    exact ⟨x, Set.mem_insert _ _, by rw [noted.registers, Registers.held_put_self lt]⟩
  sound := noted.solution_iff.mp

theorem Equated.extends {m m' : Machine} {v : Visit} {a : Address} (equated : m.Equated v a m')
    {known : Set Register} (holds : ∀ y ∈ known, ∃ a, m.registers.held y = some a) :
    m.Extends known m' known where
  ready := equated.ready
  grows := subset_rfl
  count := by rw [equated.registers]
  keeps y _ := by rw [equated.registers]
  holds := by rwa [equated.registers]
  heap := equated.heap
  rooted := fun rooted => (equated.rooted rooted).mono Set.subset_union_left
  sound := fun sol => (equated.solution_iff.mp sol).1

theorem Visited.nil {m : Machine} (ready : m.Ready) (idle : m.cursor = .idle)
    {known : Set Register} (holds : ∀ y ∈ known, ∃ a, m.registers.held y = some a) (q : Address) :
    m.Visited known q [] m := by
  have none : known ∪ {y | y ∈ ([] : List Register)} = known := by simp
  refine ⟨?_, idle, fun _ => rfl, fun reads _ => ?_⟩
  · rw [none]
    exact .refl ready holds
  · rwa [none]

/-- One argument, at `q`, has been visited. -/
structure Stepped (m : Machine) (known : Set Register) (q : Address) (x : Register)
    (m' : Machine) : Prop where
  grown : m.Extends known m' (insert x known)
  equation : ∀ {τ : Type} [Trees τ] {σ : Address → τ}, m'.heap.Solution σ → m'.value σ x = σ q
  complete : ∀ {τ : Type} [Trees τ] {σ : Address → τ} {ρ : Register → τ}, m.Reads known σ ρ →
    ρ x = σ q → m'.Reads (insert x known) σ ρ

theorem Noted.stepped {m m' : Machine} {v : Visit} {x : Register} (noted : m.Noted v x m')
    (lt : x < m.registers.count) {known : Set Register} (fresh : x ∉ known)
    (holds : ∀ y ∈ known, ∃ a, m.registers.held y = some a) : m.Stepped known v.next x m' := by
  have grown := noted.extends lt fresh holds
  have held : m'.registers.held x = some v.next := by
    rw [noted.registers, Registers.held_put_self lt]
  refine ⟨grown, fun _ => value_of_held held _, fun reads here => ⟨?_, ?_⟩⟩
  · exact noted.solution_iff.mpr reads.solution
  · rintro y (rfl | mem)
    · rw [here, value_of_held held]
    · rw [grown.value _ mem]
      exact reads.registers y mem

theorem Equated.stepped {m m' : Machine} {v : Visit} {x : Register} {a : Address}
    (equated : m.Equated v a m') {known : Set Register} (mem : x ∈ known)
    (held : m.registers.held x = some a)
    (holds : ∀ y ∈ known, ∃ a, m.registers.held y = some a) : m.Stepped known v.next x m' := by
  have grown := equated.extends holds
  have same : insert x known = known := Set.insert_eq_of_mem mem
  refine ⟨by rwa [same], fun {τ _ σ} sol => ?_, fun {τ _ σ ρ} reads here => ⟨?_, ?_⟩⟩
  · rw [grown.value σ mem, value_of_held held]
    exact (equated.solution_iff.mp sol).2
  · refine equated.solution_iff.mpr ⟨reads.solution, ?_⟩
    rw [← value_of_held held σ, ← reads.registers x mem, here]
  · rw [same]
    intro y hy
    rw [grown.value _ hy]
    exact reads.registers y hy

theorem Stepped.solvable {m m₁ : Machine} {known : Set Register} {q : Address} {x : Register}
    (stepped : m.Stepped known q x m₁) {τ : Type} [Trees τ] {σ : Address → τ} {ρ : Register → τ}
    {xs : List Register} (reads : m.Reads known σ ρ)
    (eq : (x :: xs).map ρ = Heap.treesAt σ q (x :: xs).length) :
    m₁.Reads (insert x known) σ ρ ∧ xs.map ρ = Heap.treesAt σ (q + 1) xs.length := by
  obtain ⟨here, below⟩ := map_eq_treesAt_cons.mp eq
  exact ⟨stepped.complete reads here, below⟩

theorem Stepped.visited {m m₁ m' : Machine} {known : Set Register} {q : Address} {x : Register}
    {xs : List Register} (stepped : m.Stepped known q x m₁)
    (rest : m₁.Visited (insert x known) (q + 1) xs m') : m.Visited known q (x :: xs) m' := by
  have total : insert x known ∪ {y | y ∈ xs} = known ∪ {y | y ∈ x :: xs} := by
    ext y
    simp only [Set.mem_union, Set.mem_insert_iff, Set.mem_ofPred_eq, List.mem_cons]
    tauto
  refine ⟨total ▸ stepped.grown.trans rest.grown, rest.idle, fun {τ _ σ} sol => ?_,
    fun reads eq => ?_⟩
  · refine map_eq_treesAt_cons.mpr ⟨?_, rest.equation sol⟩
    rw [rest.grown.value σ (Set.mem_insert x known), stepped.equation (rest.grown.sound sol)]
  · obtain ⟨reads', below⟩ := stepped.solvable reads eq
    exact total ▸ rest.complete reads' below

/-- What comparing the next argument with a register leads to. -/
theorem Ready.compare_lead {m : Machine} (ready : m.Ready) {v : Visit} {x : Register}
    {i : Instruction} (hv : m.cursor.visit? = some v) (compares : Code.Compares x v.mode i)
    {known : Set Register} (mem : x ∈ known)
    (holds : ∀ y ∈ known, ∃ a, m.registers.held y = some a) (fuel : Nat) :
    Leads fuel m.registers.count
      (fun τ _ ρ => ∃ σ : Address → τ, m.Reads known σ ρ ∧ ρ x = σ v.next)
      (fun m₁ => m.Stepped known v.next x m₁ ∧ m₁.cursor = .behind v)
      (m.counted.step fuel i) := by
  obtain ⟨a, held⟩ := holds x mem
  have compared := ready.compare hv compares held fuel
  have here {τ : Type} [Trees τ] {σ : Address → τ} {ρ : Register → τ}
      (reads : m.Reads known σ ρ) : ρ x = σ a := by
    rw [reads.registers x mem, value_of_held held]
  generalize m.counted.step fuel i = effect at compared
  cases compared with
  | done equated => exact .done ⟨equated.stepped mem held holds, equated.cursor⟩
  | failed unsolvable =>
      refine .failed ?_
      rintro τ _ ρ ⟨σ, reads, eq⟩
      exact unsolvable reads.solution ((here reads).symm.trans eq)
  | unfinished large =>
      refine .unfinished ?_
      rintro τ _ size hs ρ ⟨σ, reads, eq⟩
      have more := large hs reads.solution ((here reads).symm.trans eq)
      rw [← here reads] at more
      exact ⟨x, Registers.lt_count_of_held held, more⟩

theorem arguments_lead {fuel count : Nat} {mode : Mode} {known : Set Register}
    {is : List Instruction} {xs : List Register}
    (arguments : Code.Arguments count mode known is xs) {m : Machine} (ready : m.Ready)
    (le : count ≤ m.registers.count) (holds : ∀ y ∈ known, ∃ a, m.registers.held y = some a)
    {q : Address} (ahead : Cursor.Ahead mode q xs.length m.cursor) :
    Leads fuel m.registers.count
      (fun τ _ ρ => ∃ σ : Address → τ, m.Reads known σ ρ ∧
        xs.map ρ = Heap.treesAt σ q xs.length)
      (m.Visited known q xs) (m.advance fuel is) := by
  induction arguments generalizing m q with
  | nil =>
      have idle : m.cursor = .idle := by
        generalize m.cursor = c at ahead
        cases ahead
        rfl
      exact .done (.nil ready idle holds q)
  | @new known i is x xs notes lt fresh _ ih =>
      obtain ⟨v, hv, rfl, rfl, left⟩ := ahead.visit
      have lt' : x < m.registers.count := Nat.lt_of_lt_of_le lt le
      obtain ⟨m₁, step, noted⟩ := ready.note hv notes lt' fuel
      have stepped := noted.stepped lt' fresh holds
      have rest := ih noted.ready (stepped.grown.count ▸ le) stepped.grown.holds
        (noted.cursor ▸ Cursor.ahead_behind left)
      rw [ready.advance_cons, step]
      rw [stepped.grown.count] at rest
      exact rest.imp (fun ⟨σ, reads, eq⟩ => ⟨σ, stepped.solvable reads eq⟩) stepped.visited
  | @old known i is x xs compares mem _ ih =>
      obtain ⟨v, hv, rfl, rfl, left⟩ := ahead.visit
      rw [ready.advance_cons]
      refine ((ready.compare_lead hv compares mem holds fuel).imp ?_ id).bind fun m₁ next => ?_
      · rintro τ _ ρ ⟨σ, reads, eq⟩
        exact ⟨σ, reads, (map_eq_treesAt_cons.mp eq).1⟩
      · obtain ⟨stepped, cursor⟩ := next
        have same : insert x known = known := Set.insert_eq_of_mem mem
        have rest := ih stepped.grown.ready (stepped.grown.count ▸ le)
          (same ▸ stepped.grown.holds) (cursor ▸ Cursor.ahead_behind left)
        rw [stepped.grown.count, ← same] at rest
        exact rest.imp (fun ⟨σ, reads, eq⟩ => ⟨σ, stepped.solvable reads eq⟩) stepped.visited

/-! ## Structures -/

/-- A structure has been started that the register `x` stands for. Its `n` arguments, of which
nothing is known yet, are at `q` and behind it. -/
structure Started (m : Machine) (known : Set Register) (x : Register) (s : Symbol) (q : Address)
    (m' : Machine) : Prop where
  grown : m.Extends known m' (insert x known)
  equation : ∀ {τ : Type} [Trees τ] {σ : Address → τ}, m'.heap.Solution σ →
    m'.value σ x = Trees.node s.name (Heap.treesAt σ q s.arity)
  complete : ∀ {τ : Type} [Trees τ] {σ : Address → τ} {ρ : Register → τ} {ts : List τ},
    m.Reads known σ ρ → ts.length = s.arity → ρ x = Trees.node s.name ts →
      ∃ σ' : Address → τ, (∀ a < m.heap.top, σ' a = σ a) ∧ m'.Reads (insert x known) σ' ρ ∧
        Heap.treesAt σ' q s.arity = ts

theorem Ready.heap {m : Machine} (ready : m.Ready) (idle : m.cursor = .idle) :
    m.heap.WellFormed := ready.wellFormed.heap ready.alive (not_writes_of_idle idle)

theorem Ready.not_open_refused {m : Machine} (ready : m.Ready) (idle : m.cursor = .idle)
    {e : MachineError} : ¬m.OpenRefused e := by
  intro refused
  cases refused with
  | active busy => exact busy idle
  | full full => simp [ready.reserve] at full

/-- Solutions and what registers stand for do not change beyond the top. -/
theorem Reads.extended {m m' : Machine} (ready : m.Ready) {known : Set Register} {τ : Type}
    [Trees τ] {σ σ' : Address → τ} {ρ : Register → τ} (reads : m.Reads known σ ρ)
    (same : ∀ a < m.heap.top, σ' a = σ a)
    (keeps : ∀ y ∈ known, m'.registers.held y = m.registers.held y)
    (holds : ∀ y ∈ known, ∃ a, m.registers.held y = some a) :
    ∀ y ∈ known, ρ y = m'.value σ' y := by
  intro y mem
  obtain ⟨a, held⟩ := holds y mem
  have lt := (ready.wellFormed.registers held).lt_top
  rw [reads.registers y mem, value_of_held held, value_of_held ((keeps y mem).trans held),
    same a lt]

theorem Ready.put {m : Machine} (ready : m.Ready) (idle : m.cursor = .idle)
    {known : Set Register} (holds : ∀ y ∈ known, ∃ a, m.registers.held y = some a) {x : Register}
    (lt : x < m.registers.count) (fresh : x ∉ known) (s : Symbol) (fuel : Nat) :
    ∃ m' q, m.counted.step fuel (.putStructure s x) = .done m' ∧ m.Started known x s q m' ∧
      Cursor.Ahead .write q s.arity m'.cursor := by
  have t := step_transition ready.counted.wellFormed ready.counted.alive fuel (.putStructure s x)
  generalize m.counted.step fuel (.putStructure s x) = effect at t
  have kept := t
  cases t with
  | putRefused refused => exact absurd refused (ready.counted.not_open_refused idle)
  | put _ _ stored =>
      cases stored with
      | missing le => exact absurd lt (Nat.not_lt.mpr le)
      | done _ =>
          refine ⟨_, m.heap.top + 2, rfl, ?_, Cursor.ahead_along _ _ _⟩
          have linked := ready.wellFormed.linked
          have here : (m.registers.put x m.heap.top).held x = some m.heap.top :=
            Registers.held_put_self lt m.heap.top
          have keeps := keeps_put lt fresh m.heap.top
          refine ⟨⟨ready.counted.done kept rfl rfl, Set.subset_insert _ _,
            Registers.count_put .., keeps, holds_put lt fresh holds m.heap.top, ?_,
            fun rooted => ?_, fun sol => ?_⟩, fun {τ _ σ} sol => ?_,
            fun {τ _ σ ρ ts} reads len node => ?_⟩
          · exact m.heap.growsTo_opened s
          · exact (rooted.opened s).mono Set.subset_union_left
          · exact (linked.solution_opened_iff.mp sol).1
          · rw [value_of_held here]
            exact (linked.solution_opened_iff.mp sol).2
          · obtain ⟨sol, filled⟩ := reads.solution.opened linked (ready.heap idle) len
            have below : ∀ a < m.heap.top, Heap.extended σ m.heap.top s.name ts a = σ a :=
              fun a lt => Heap.extended_of_lt lt
            refine ⟨_, below, ⟨sol, ?_⟩, filled⟩
            rintro y (rfl | mem)
            · rw [value_of_held here, Heap.extended_top, node]
            · exact reads.extended ready below keeps holds y mem

/-- A machine that agrees with another one on registers, and has bound a variable to the start of a
structure. -/
theorem Ready.get_write {m m' : Machine} (ready : m.Ready) (idle : m.cursor = .idle)
    {known : Set Register} (holds : ∀ y ∈ known, ∃ a, m.registers.held y = some a) {x : Register}
    (mem : x ∈ known) {a b : Address} {s : Symbol} (held : m.registers.held x = some a)
    (unbound : m.heap.Unbound a b) (binding : (m.heap.opened s).Binding b m.heap.top)
    (ready' : m'.Ready) (registers : m'.registers = m.registers)
    (heap : m'.heap = (m.heap.opened s).assign b m.heap.top) :
    m.Started known x s (m.heap.top + 2) m' := by
  have linked := ready.wellFormed.linked
  have same : insert x known = known := Set.insert_eq_of_mem mem
  have keeps : ∀ y ∈ known, m'.registers.held y = m.registers.held y := fun y _ => by
    rw [registers]
  have lt : b < m.heap.top := Heap.lt_top_of_cell unbound.2
  -- what the new structure stands for, the register stands for too
  have sound {τ : Type} [Trees τ] {σ : Address → τ} (sol : m'.heap.Solution σ) :
      m.heap.Solution σ ∧ σ a = Trees.node s.name (Heap.treesAt σ (m.heap.top + 2) s.arity) := by
    rw [heap, binding.solution_iff, linked.solution_opened_iff] at sol
    obtain ⟨⟨old, new⟩, bound⟩ := sol
    exact ⟨old, (old.endsAt unbound.1).trans (bound.trans new)⟩
  refine ⟨⟨ready', Set.subset_insert _ _, by rw [registers], keeps, ?_, ?_, fun rooted => ?_,
    fun sol => (sound sol).1⟩, fun {τ _ σ} sol => ?_, fun {τ _ σ ρ ts} reads len node => ?_⟩
  · rw [same, registers]
    exact holds
  · rw [heap]
    exact (m.heap.growsTo_opened s).trans binding.growsTo
  · rw [heap]
    exact (binding.rooted (rooted.opened s)).mono Set.subset_union_left
  · rw [value_of_held ((keeps x mem).trans held)]
    exact (sound sol).2
  · obtain ⟨sol, filled⟩ := reads.solution.opened linked (ready.heap idle) len
    have below : ∀ a < m.heap.top, Heap.extended σ m.heap.top s.name ts a = σ a :=
      fun a lt => Heap.extended_of_lt lt
    refine ⟨_, below, ⟨?_, ?_⟩, filled⟩
    · rw [heap, binding.solution_iff]
      refine ⟨sol, ?_⟩
      have ends := reads.solution.endsAt unbound.1
      rw [Heap.extended_of_lt lt, Heap.extended_top, ← ends, ← value_of_held held σ,
        ← reads.registers x mem, node]
    · rw [same]
      exact reads.extended ready below keeps holds

/-- A structure that is there is matched with the arguments it has. -/
theorem Ready.get_read {m m' : Machine} (ready : m.Ready) {known : Set Register}
    (holds : ∀ y ∈ known, ∃ a, m.registers.held y = some a) {x : Register} (mem : x ∈ known)
    {a p : Address} {s : Symbol} (held : m.registers.held x = some a)
    (compound : m.heap.Compound a s p) (ready' : m'.Ready) (registers : m'.registers = m.registers)
    (heap : m'.heap = m.heap) : m.Started known x s (p + 1) m' := by
  have same : insert x known = known := Set.insert_eq_of_mem mem
  have keeps : ∀ y ∈ known, m'.registers.held y = m.registers.held y := fun y _ => by
    rw [registers]
  refine ⟨⟨ready', Set.subset_insert _ _, by rw [registers], keeps, ?_, heap ▸ .refl _,
    fun rooted => ?_, fun sol => heap ▸ sol⟩, fun {τ _ σ} sol => ?_,
    fun {τ _ σ ρ ts} reads len node => ?_⟩
  · rw [same, registers]
    exact holds
  · rw [heap]
    exact rooted.mono Set.subset_union_left
  · rw [value_of_held ((keeps x mem).trans held)]
    rw [heap] at sol
    exact sol.compound compound
  · refine ⟨σ, fun _ _ => rfl, ⟨heap ▸ reads.solution, ?_⟩, ?_⟩
    · rw [same]
      exact reads.extended ready (fun _ _ => rfl) keeps holds
    · have here := reads.registers x mem
      rw [value_of_held held, reads.solution.compound compound, node] at here
      exact (Trees.node_inj here).2.symm

theorem Ready.get {m : Machine} (ready : m.Ready) (idle : m.cursor = .idle)
    {known : Set Register} (holds : ∀ y ∈ known, ∃ a, m.registers.held y = some a) {x : Register}
    (mem : x ∈ known) (s : Symbol) (fuel : Nat) :
    Leads fuel m.registers.count
      (fun τ _ ρ => ∃ (σ : Address → τ) (ts : List τ), m.Reads known σ ρ ∧ ts.length = s.arity ∧
        ρ x = Trees.node s.name ts)
      (fun m' => ∃ mode q, m.Started known x s q m' ∧ Cursor.Ahead mode q s.arity m'.cursor)
      (m.counted.step fuel (.getStructure s x)) := by
  have t := step_transition ready.counted.wellFormed ready.counted.alive fuel (.getStructure s x)
  generalize m.counted.step fuel (.getStructure s x) = effect at t
  have kept := t
  cases t with
  | getUnread unread =>
      obtain ⟨a, held⟩ := holds x mem
      have loaded : m.counted.registers.load x = .ok a := Registers.load_eq_ok_iff.mpr held
      rw [loaded] at unread
      cases unread
  | getRefused _ _ refused => exact absurd refused (ready.counted.not_open_refused idle)
  | getActive _ _ busy => exact absurd idle busy
  | getWrite held unbound _ _ binding =>
      have started := ready.get_write idle holds mem held unbound binding
        (ready.counted.done kept rfl rfl) rfl rfl
      exact .done ⟨.write, _, started, Cursor.ahead_along _ _ _⟩
  | getRead held compound _ =>
      have started := ready.get_read holds mem held compound (ready.counted.done kept rfl rfl) rfl
        rfl
      exact .done ⟨.read, _, started, Cursor.ahead_along _ _ _⟩
  | @getFailed _ t _ a p held compound differ =>
      refine .failed ?_
      rintro τ _ ρ ⟨σ, ts, reads, len, node⟩
      have here : ρ x = σ a := (reads.registers x mem).trans (value_of_held (m := m) held σ)
      rw [reads.solution.compound compound, node] at here
      obtain ⟨name, below⟩ := Trees.node_inj here
      have arity := congrArg List.length below
      rw [len, Heap.length_treesAt] at arity
      obtain ⟨f, n⟩ := t
      obtain ⟨g, k⟩ := s
      simp_all

/-! ## Blocks -/

/-- The equations of the nodes have been solved. -/
structure Solved (m : Machine) (known : Set Register) (nodes : List Node) (m' : Machine) :
    Prop where
  grown : m.Extends known m' (known ∪ Code.scopes nodes)
  idle : m'.cursor = .idle
  equations : ∀ {τ : Type} [Trees τ] {σ : Address → τ}, m'.heap.Solution σ →
    ∀ n ∈ nodes, n.Holds (m'.value σ)
  complete : ∀ {τ : Type} [Trees τ] {σ : Address → τ} {ρ : Register → τ}, m.Reads known σ ρ →
    (∀ n ∈ nodes, n.Holds ρ) → ∃ σ' : Address → τ, (∀ a < m.heap.top, σ' a = σ a) ∧
      m'.Reads (known ∪ Code.scopes nodes) σ' ρ

theorem Solved.nil {m : Machine} (ready : m.Ready) (idle : m.cursor = .idle)
    {known : Set Register} (holds : ∀ y ∈ known, ∃ a, m.registers.held y = some a) :
    m.Solved known [] m := by
  have none : known ∪ Code.scopes [] = known := by
    ext y
    simp [Code.scopes]
  refine ⟨?_, idle, fun _ n mem => ?_, fun {τ _ σ ρ} reads _ => ⟨σ, fun _ _ => rfl, ?_⟩⟩
  · rw [none]
    exact .refl ready holds
  · cases mem
  · rwa [none]

theorem mem_scope_of_arg {node arg : Node} (mem : arg ∈ node.args) : arg.register ∈ node.scope :=
  .inr (List.mem_map_of_mem mem)

/-- When the arguments of a structure have been visited, its equation has been solved. -/
theorem Started.solved {m m₁ m' : Machine} {known : Set Register} {x : Register} {name : String}
    {args : List Node} {q : Address} (started : m.Started known x ⟨name, args.length⟩ q m₁)
    (visited : m₁.Visited (insert x known) q (args.map Node.register) m') :
    m.Solved known [.compound x name args] m' := by
  have total : insert x known ∪ {y | y ∈ args.map Node.register} =
      known ∪ Code.scopes [.compound x name args] := by
    rw [Code.scopes_singleton, Node.scope, Set.union_insert, Set.insert_union]
    rfl
  have count : (args.map Node.register).length = args.length := List.length_map _
  refine ⟨total ▸ started.grown.trans visited.grown, visited.idle, fun {τ _ σ} sol n mem => ?_,
    fun {τ _ σ ρ} reads holds => ?_⟩
  · obtain rfl := List.mem_singleton.mp mem
    have below := visited.equation sol
    rw [List.map_map, count] at below
    show m'.value σ x = Trees.node name (args.map (m'.value σ ∘ Node.register))
    rw [visited.grown.value σ (Set.mem_insert x known), started.equation (visited.grown.sound sol),
      below]
  · have node : ρ x = Trees.node name (args.map fun arg => ρ arg.register) :=
      holds _ (List.mem_singleton_self _)
    obtain ⟨σ', same, reads', below⟩ := started.complete reads (List.length_map _) node
    refine ⟨σ', same, total ▸ visited.complete reads' ?_⟩
    rw [List.map_map, count]
    exact below.symm

theorem Started.lead {m m₁ : Machine} {known : Set Register} {x : Register} {name : String}
    {args : List Node} {q : Address} {fuel count : Nat} {mode : Mode} {is : List Instruction}
    (started : m.Started known x ⟨name, args.length⟩ q m₁) (le : count ≤ m.registers.count)
    (ahead : Cursor.Ahead mode q args.length m₁.cursor)
    (arguments : Code.Arguments count mode (insert x known) is (args.map Node.register)) :
    Leads fuel m.registers.count
      (fun τ _ ρ => ∃ σ : Address → τ, m.Reads known σ ρ ∧ (Node.compound x name args).Holds ρ)
      (m.Solved known [.compound x name args]) (m₁.advance fuel is) := by
  have count' : (args.map Node.register).length = args.length := List.length_map _
  have leads := @arguments_lead fuel _ _ _ _ _ arguments _ started.grown.ready
    (started.grown.count ▸ le) started.grown.holds _ (count'.symm ▸ ahead)
  rw [started.grown.count] at leads
  refine leads.imp ?_ started.solved
  rintro τ _ ρ ⟨σ, reads, holds⟩
  obtain ⟨σ', _, reads', below⟩ := started.complete reads (List.length_map _) holds
  refine ⟨σ', reads', ?_⟩
  rw [List.map_map, count']
  exact below.symm

theorem block_lead {fuel count : Nat} {known : Set Register} {is : List Instruction} {node : Node}
    (block : Code.Block count known is node) {m : Machine} (ready : m.Ready)
    (idle : m.cursor = .idle) (le : count ≤ m.registers.count)
    (holds : ∀ y ∈ known, ∃ a, m.registers.held y = some a) :
    Leads fuel m.registers.count
      (fun τ _ ρ => ∃ σ : Address → τ, m.Reads known σ ρ ∧ node.Holds ρ)
      (m.Solved known [node]) (m.advance fuel is) := by
  cases block with
  | @put is x name args lt fresh arguments =>
      obtain ⟨m₁, q, step, started, ahead⟩ := ready.put idle holds (Nat.lt_of_lt_of_le lt le) fresh
        ⟨name, args.length⟩ fuel
      rw [ready.advance_cons, step]
      exact started.lead le ahead arguments
  | @get is x name args mem arguments =>
      rw [ready.advance_cons]
      refine ((ready.get idle holds mem ⟨name, args.length⟩ fuel).imp ?_ id).bind ?_
      · rintro τ _ ρ ⟨σ, reads, node⟩
        exact ⟨σ, _, reads, List.length_map _, node⟩
      · rintro m₁ ⟨mode, q, started, ahead⟩
        exact started.lead le ahead (arguments mode)

theorem Solved.cons {m m₁ m' : Machine} {known : Set Register} {node : Node} {nodes : List Node}
    (first : m.Solved known [node] m₁) (rest : m₁.Solved (known ∪ node.scope) nodes m') :
    m.Solved known (node :: nodes) m' := by
  have grown := first.grown
  rw [Code.scopes_singleton] at grown
  have total := Code.union_scopes_cons known node nodes
  refine ⟨total ▸ grown.trans rest.grown, rest.idle, fun {τ _ σ} sol n mem => ?_,
    fun {τ _ σ ρ} reads holds => ?_⟩
  · rcases List.mem_cons.mp mem with rfl | mem
    · have before : n.Holds (m₁.value σ) :=
        first.equations (rest.grown.sound sol) n (List.mem_singleton_self n)
      refine before.congr (rest.grown.value σ (.inr (.inl rfl))) fun arg harg => ?_
      exact rest.grown.value σ (.inr (mem_scope_of_arg harg))
    · exact rest.equations sol n mem
  · obtain ⟨σ₁, same₁, reads₁⟩ := first.complete reads fun n mem =>
      holds n (List.mem_singleton.mp mem ▸ List.mem_cons_self)
    rw [Code.scopes_singleton] at reads₁
    obtain ⟨σ₂, same₂, reads₂⟩ := rest.complete reads₁ fun n mem =>
      holds n (List.mem_cons_of_mem _ mem)
    refine ⟨σ₂, fun a lt => ?_, total ▸ reads₂⟩
    rw [same₂ a (Nat.lt_of_lt_of_le lt first.grown.heap.top), same₁ a lt]

/-- Code for several applications solves their equations, or they have no solution. -/
theorem blocks_lead {fuel count : Nat} {known : Set Register} {is : List Instruction}
    {nodes : List Node} (blocks : Code.Blocks count known is nodes) {m : Machine} (ready : m.Ready)
    (idle : m.cursor = .idle) (le : count ≤ m.registers.count)
    (holds : ∀ y ∈ known, ∃ a, m.registers.held y = some a) :
    Leads fuel m.registers.count
      (fun τ _ ρ => ∃ σ : Address → τ, m.Reads known σ ρ ∧ ∀ n ∈ nodes, n.Holds ρ)
      (m.Solved known nodes) (m.advance fuel is) := by
  induction blocks generalizing m with
  | nil => exact .done (.nil ready idle holds)
  | @cons known is js node nodes block _ ih =>
      rw [advance_append]
      refine ((block_lead block ready idle le holds).imp ?_ id).bind fun m₁ solved => ?_
      · rintro τ _ ρ ⟨σ, reads, all⟩
        exact ⟨σ, reads, all node List.mem_cons_self⟩
      · have grown := solved.grown
        rw [Code.scopes_singleton] at grown
        have rest := ih grown.ready solved.idle (grown.count ▸ le) grown.holds
        rw [grown.count] at rest
        refine rest.imp ?_ solved.cons
        rintro τ _ ρ ⟨σ, reads, all⟩
        obtain ⟨σ', _, reads'⟩ := solved.complete reads fun n mem =>
          all n (List.mem_singleton.mp mem ▸ List.mem_cons_self)
        rw [Code.scopes_singleton] at reads'
        exact ⟨σ', reads', fun n mem => all n (List.mem_cons_of_mem _ mem)⟩

end Machine

end TermMachine
