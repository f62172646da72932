import TermMachine.Proofs.Machine.Transition

/-! # Machines stay well-formed

Every instruction keeps a machine well-formed, whatever it leads to, and so does everything else
that happens in the life of a machine. `Reachable` is that life: any runs of any instructions, one
after the other, whether or not they ended in errors. Machines in the middle of a run belong to it.
-/

namespace TermMachine

def Effect.settled : Effect → Machine
  | .done m | .error _ m | .unfinished m => m
  | .failed m => { m with status := .failed }

def Outcome.machine : Outcome → Machine
  | .ok m | .error _ m | .unfinished m => m

theorem Cursor.visit_along {mode : Mode} {args : Arguments} {v : Visit}
    (hv : (Cursor.along mode args).visit? = some v) : args.count ≠ 0 ∧ v = ⟨mode, args, 0⟩ := by
  unfold Cursor.along at hv
  split at hv
  · cases hv
  · next some =>
      cases hv
      exact ⟨some, rfl⟩

theorem Cursor.along_of_ne_zero {args : Arguments} (some : args.count ≠ 0) (mode : Mode) :
    (Cursor.along mode args).visit? = .some ⟨mode, args, 0⟩ := by
  simp [Cursor.along, some]

theorem Cursor.visit_behind {v w : Visit} (hw : (Cursor.behind v).visit? = some w) :
    v.index + 1 ≠ v.arguments.count ∧ w = { v with index := v.index + 1 } := by
  unfold Cursor.behind at hw
  split at hw
  · cases hw
  · next more =>
      cases hw
      exact ⟨more, rfl⟩

theorem Cursor.behind_of_ne {v : Visit} (more : v.index + 1 ≠ v.arguments.count) :
    (Cursor.behind v).visit? = some { v with index := v.index + 1 } := by
  simp [Cursor.behind, more]

namespace Machine

/-- Every structure in the heap of a machine that has not failed is complete, but for the one that
is being written. -/
theorem WellFormed.filled_or_writes {m : Machine} (wf : m.WellFormed) (alive : m.status ≠ .failed)
    {p : Address} {s : Symbol} (symbol : m.heap.cells[p]? = some (.symbol s)) :
    m.heap.Filled p s.arity ∨ m.cursor.Writes p := by
  rcases wf.arguments symbol with full | ⟨_, writes | failed⟩
  · exact .inl full
  · exact .inr writes
  · exact absurd failed alive

theorem WellFormed.stored {m : Machine} (wf : m.WellFormed) {x : Register} {a : Address}
    {effect : Effect} (term : m.heap.IsTerm a) (stored : m.Stored x a effect) :
    effect.settled.WellFormed := by
  cases stored with
  | missing _ => exact wf
  | done lt =>
      refine ⟨wf.linked, wf.arguments, wf.visit, fun {y b} hy => ?_⟩
      change (m.registers.put x a).held y = some b at hy
      rw [Registers.held_put lt] at hy
      split at hy
      · cases hy
        exact term
      · exact wf.registers hy

theorem WellFormed.opened {m : Machine} (wf : m.WellFormed) (alive : m.status ≠ .failed)
    (idle : m.cursor = .idle) (s : Symbol) : (m.opened s).WellFormed := by
  refine ⟨wf.linked.opened s, fun {p t} symbol => ?_, fun {v} hv => ?_, fun held =>
    (wf.registers held).opened s⟩
  · rcases Heap.cell_of_opened symbol with ⟨rfl, eq⟩ | ⟨_, eq⟩ | old
    · cases eq
      by_cases empty : s.arity = 0
      · exact .inl fun i hi => absurd hi (by omega)
      · refine .inr ⟨⟨0, Nat.pos_of_ne_zero empty, ?_, fun i hi => absurd hi (Nat.not_lt_zero i)⟩,
          .inl ⟨_, Cursor.along_of_ne_zero empty _, rfl, rfl⟩⟩
        exact (Heap.top_opened m.heap s).symm
    · cases eq
    · rcases wf.filled_or_writes alive old with full | writes
      · exact .inl (full.opened s)
      · exact absurd writes (not_writes_of_idle idle p)
  · obtain ⟨some, rfl⟩ := Cursor.visit_along hv
    exact ⟨m.heap.top + 1, s, rfl, rfl, Heap.cells_opened_symbol m.heap s,
      Nat.pos_of_ne_zero some, nofun,
      fun _ => ⟨fun i hi => absurd hi (Nat.not_lt_zero i), (Heap.top_opened m.heap s).symm⟩⟩

/-- A structure grows by the term that is added at its end. -/
theorem filled_added {h : Heap} {p n : Nat} {cell : Cell} (filled : h.Filled p n)
    (ends : p + 1 + n = h.top) (term : (h.added cell).IsTerm h.top) :
    (h.added cell).Filled p (n + 1) := by
  intro i hi
  rcases Nat.lt_succ_iff_lt_or_eq.mp hi with lt | rfl
  · exact (filled i lt).added cell
  · rw [ends]
    exact term

theorem WellFormed.wrote {m : Machine} (wf : m.WellFormed) (alive : m.status ≠ .failed)
    {v : Visit} (writable : m.Writable v) {cell : Cell} (fits : m.heap.Fits cell)
    (term : (m.heap.added cell).IsTerm m.heap.top) : (m.wrote v cell).WellFormed := by
  obtain ⟨p, s, place⟩ := wf.visit writable.hv
  obtain ⟨filled, ends⟩ := place.write writable.write
  have grown := filled_added filled ends term
  have further : p + 1 + (v.index + 1) = (m.heap.added cell).top := by
    rw [Heap.top_added, ← Nat.add_assoc, ends]
  refine ⟨wf.linked.added fits, fun {q t} symbol => ?_, fun {w} hw => ?_, fun held =>
    (wf.registers held).added cell⟩
  · rcases Heap.cell_of_added symbol with ⟨rfl, _⟩ | old
    · exact absurd symbol term.not_symbol
    · rcases wf.filled_or_writes alive old with full | ⟨w, hw, _, first⟩
      · exact .inl (full.added cell)
      · -- the structure that is written is the one that the visit is on
        rw [writable.hv, Option.some.injEq] at hw
        subst hw
        rw [place.first] at first
        obtain rfl : p = q := Nat.succ.inj first
        obtain rfl : s = t := by simpa [place.symbol] using old
        by_cases last : v.index + 1 = s.arity
        · exact .inl (last ▸ grown)
        · have more : v.index + 1 ≠ v.arguments.count := place.count ▸ last
          refine .inr ⟨⟨v.index + 1, ?_, further, grown⟩,
            .inl ⟨_, Cursor.behind_of_ne more, writable.write, place.first⟩⟩
          exact Nat.lt_of_le_of_ne place.pending last
  · obtain ⟨more, rfl⟩ := Cursor.visit_behind hw
    rw [place.count] at more
    refine ⟨p, s, place.first, place.count, Heap.cell_added place.symbol cell,
      Nat.lt_of_le_of_ne place.pending more, fun read => ?_, fun _ => ⟨grown, further⟩⟩
    exact absurd (read.symm.trans writable.write) nofun

/-- A cell that comes to lie out of place belongs to no structure. -/
theorem WellFormed.strayed {m : Machine} (wf : m.WellFormed) (alive : m.status ≠ .failed)
    {v : Visit} (hv : m.cursor.visit? = some v) (read : v.mode = .read) {cell : Cell}
    (fits : m.heap.Fits cell) (term : (m.heap.added cell).IsTerm m.heap.top) :
    WellFormed { m with heap := m.heap.added cell } := by
  refine ⟨wf.linked.added fits, fun {q t} symbol => ?_, fun {w} hw => ?_, fun held =>
    (wf.registers held).added cell⟩
  · rcases Heap.cell_of_added symbol with ⟨rfl, _⟩ | old
    · exact absurd symbol term.not_symbol
    · rcases wf.filled_or_writes alive old with full | writes
      · exact .inl (full.added cell)
      · exact absurd writes (not_writes_of_read hv read q)
  · rw [hv, Option.some.injEq] at hw
    subst hw
    obtain ⟨p, s, place⟩ := wf.visit hv
    refine ⟨p, s, place.first, place.count, Heap.cell_added place.symbol cell, place.pending,
      fun _ => (place.read read).added cell, fun write => ?_⟩
    exact absurd (read.symm.trans write) nofun

theorem WellFormed.writeRefused {m m' : Machine} (wf : m.WellFormed) (alive : m.status ≠ .failed)
    {cell : Cell} {e : CursorError} (fits : m.heap.Fits cell)
    (term : (m.heap.added cell).IsTerm m.heap.top) (refused : m.WriteRefused cell e m') :
    m'.WellFormed := by
  cases refused with
  | idle _ => exact wf
  | full _ _ => exact wf
  | stray hv read _ => exact wf.strayed alive hv read fits term

theorem WellFormed.newVariable {m : Machine} (wf : m.WellFormed) (alive : m.status ≠ .failed)
    {x : Register} {effect : Effect} (added : m.NewVariable x effect) :
    effect.settled.WellFormed := by
  have fits : m.heap.Fits (.ref m.heap.top) := .inl rfl
  have term : (m.heap.added (.ref m.heap.top)).IsTerm m.heap.top :=
    .inl ⟨_, Heap.cells_added_top ..⟩
  cases added with
  | refused refused => exact wf.writeRefused alive fits term refused
  | added writable stored => exact (wf.wrote alive writable fits term).stored term stored

theorem WellFormed.copied {m : Machine} (wf : m.WellFormed) (alive : m.status ≠ .failed)
    {x : Register} {effect : Effect} (copied : m.Copied x effect) : effect.settled.WellFormed := by
  have copy {a : Address} {cell : Cell} (held : m.registers.held x = some a)
      (hc : m.heap.cells[a]? = some cell) : (m.heap.added cell).IsTerm m.heap.top := by
    rcases wf.registers held with ⟨r, hr⟩ | ⟨f, hf⟩
    · obtain rfl := Option.some.inj (hc.symm.trans hr)
      exact .inl ⟨r, Heap.cells_added_top ..⟩
    · obtain rfl := Option.some.inj (hc.symm.trans hf)
      exact .inr ⟨f, Heap.cells_added_top ..⟩
  cases copied with
  | unread _ => exact wf
  | refused held hc refused =>
      exact wf.writeRefused alive (wf.linked.fits hc) (copy held hc) refused
  | added held hc writable => exact wf.wrote alive writable (wf.linked.fits hc) (copy held hc)

theorem WellFormed.passed {m : Machine} (wf : m.WellFormed) (alive : m.status ≠ .failed)
    {v : Visit} (hv : m.cursor.visit? = some v) (read : v.mode = .read) :
    (m.passed v).WellFormed := by
  refine ⟨wf.linked, fun {p s} symbol => ?_, fun {w} hw => ?_, wf.registers⟩
  · rcases wf.filled_or_writes alive symbol with full | writes
    · exact .inl full
    · exact absurd writes (not_writes_of_read hv read p)
  · obtain ⟨more, rfl⟩ := Cursor.visit_behind hw
    obtain ⟨p, s, place⟩ := wf.visit hv
    rw [place.count] at more
    refine ⟨p, s, place.first, place.count, place.symbol,
      Nat.lt_of_le_of_ne place.pending more, fun _ => place.read read, fun write => ?_⟩
    exact absurd (read.symm.trans write) nofun

theorem WellFormed.bindings {m : Machine} (wf : m.WellFormed) {h : Heap}
    (bs : Heap.Bindings m.heap h) : WellFormed { m with heap := h } := by
  refine ⟨bs.linked wf.linked, fun {p s} symbol => ?_, fun {v} hv => ?_, fun held =>
    bs.isTerm (wf.registers held)⟩
  · rcases wf.arguments (bs.symbol_iff.mp symbol) with full | ⟨⟨k, lt, ends, filled⟩, why⟩
    · exact .inl (bs.filled full)
    · exact .inr ⟨⟨k, lt, ends.trans bs.top.symm, bs.filled filled⟩, why⟩
  · obtain ⟨p, s, place⟩ := wf.visit hv
    refine ⟨p, s, place.first, place.count, bs.symbol_iff.mpr place.symbol, place.pending,
      fun read => bs.filled (place.read read), fun write => ?_⟩
    obtain ⟨filled, ends⟩ := place.write write
    exact ⟨bs.filled filled, ends.trans bs.top.symm⟩

theorem WellFormed.failed {m : Machine} (wf : m.WellFormed) :
    WellFormed { m with cursor := .idle, status := .failed } := by
  refine ⟨wf.linked, fun {p s} symbol => ?_, nofun, wf.registers⟩
  rcases wf.arguments symbol with full | ⟨unfilled, _⟩
  · exact .inl full
  · exact .inr ⟨unfilled, .inr rfl⟩

theorem WellFormed.started {m : Machine} (wf : m.WellFormed) (alive : m.status ≠ .failed)
    (idle : m.cursor = .idle) {a p : Address} {s : Symbol} (compound : m.heap.Compound a s p) :
    WellFormed { m with cursor := .along .read ⟨p + 1, s.arity⟩ } := by
  have heap := wf.heap alive (not_writes_of_idle idle)
  refine ⟨wf.linked, fun symbol => .inl (heap.arguments symbol), fun {v} hv => ?_, wf.registers⟩
  obtain ⟨some, rfl⟩ := Cursor.visit_along hv
  obtain ⟨_, _, _, symbol⟩ := compound
  exact ⟨p, s, rfl, rfl, symbol, Nat.pos_of_ne_zero some, fun _ => heap.arguments symbol, nofun⟩

/-- The bindings that a unification of well-formed operands makes. -/
theorem WellFormed.unify_bindings {m : Machine} (wf : m.WellFormed) (alive : m.status ≠ .failed)
    (fuel : Nat) {x : Register} {v : Visit} {a : Address} (hv : m.cursor.visit? = some v)
    (read : v.mode = .read) (held : m.registers.held x = some a) :
    Heap.Bindings m.heap (m.heap.unify fuel a v.next).heap :=
  (Heap.unifyAll_bindings (wf.heap alive (not_writes_of_read hv read)).readable
    (wf.operands hv read held) fuel).1

theorem WellFormed.unified {m : Machine} (wf : m.WellFormed) (alive : m.status ≠ .failed)
    {fuel : Nat} {x : Register} {v : Visit} {a : Address} {effect : Effect}
    (hv : m.cursor.visit? = some v) (read : v.mode = .read) (held : m.registers.held x = some a)
    (unified : m.Unified fuel v a effect) : effect.settled.WellFormed := by
  have bs := wf.unify_bindings alive fuel hv read held
  cases unified with
  | done ended =>
      rw [ended] at bs
      exact (wf.passed alive hv read).bindings bs
  | failed ended =>
      rw [ended] at bs
      exact (wf.bindings bs).failed
  | unfinished ended =>
      rw [ended] at bs
      exact (wf.passed alive hv read).bindings bs

/-- What one instruction preserves. -/
theorem WellFormed.transition {m : Machine} (wf : m.WellFormed) (alive : m.status ≠ .failed)
    {fuel : Nat} {i : Instruction} {effect : Effect} (t : Transition fuel m i effect) :
    effect.settled.WellFormed := by
  cases t with
  | putRefused _ => exact wf
  | put idle _ stored =>
      exact (wf.opened alive idle _).stored (.inr ⟨_, Heap.cells_opened_top ..⟩) stored
  | setVariable added => exact wf.newVariable alive added
  | setValue copied => exact wf.copied alive copied
  | getUnread _ => exact wf
  | getRefused _ _ _ => exact wf
  | getWrite _ _ idle _ binding =>
      exact (wf.opened alive idle _).bindings (.step binding (.refl _))
  | getActive _ _ _ => exact wf
  | getRead _ compound idle => exact wf.started alive idle compound
  | getFailed _ _ _ => exact wf.failed
  | unifyVariableIdle _ => exact wf
  | unifyVariableWrite _ _ added => exact wf.newVariable alive added
  | unifyVariableRead hv read stored =>
      exact (wf.passed alive hv read).stored (wf.next_isTerm hv read) stored
  | unifyValueIdle _ => exact wf
  | unifyValueWrite _ _ copied => exact wf.copied alive copied
  | unifyValueUnread hv read _ => exact wf.passed alive hv read
  | unifyValueRead hv read held unified => exact wf.unified alive hv read held unified

theorem WellFormed.step {m : Machine} (wf : m.WellFormed) (alive : m.status ≠ .failed)
    (fuel : Nat) (i : Instruction) : (m.step fuel i).settled.WellFormed :=
  wf.transition alive (step_transition wf alive fuel i)

/-! ## The life of a machine -/

def counted (m : Machine) : Machine := { m with steps := m.steps + 1 }

/-- How the execution goes on after its first instruction. -/
def goOn (fuel : Nat) (is : List Instruction) : Effect → Outcome
  | .done m => m.execute fuel is
  | .failed m => .ok { m with status := .failed }
  | .error e m => .error e m
  | .unfinished m => .unfinished m

theorem execute_cons {fuel : Nat} {m : Machine} {i : Instruction} {is : List Instruction}
    (within : m.reachedLimit? = none) :
    m.execute fuel (i :: is) = goOn fuel is (m.counted.step fuel i) := by
  simp only [Machine.execute, within]
  rfl

/-- The machines that any sequence of runs passes through, whatever the runs lead to. -/
inductive Reachable (registerCount : Nat) (limits : Limits) : Machine → Prop
  | new : Reachable registerCount limits (new registerCount limits)
  /-- A run begins, unless a unification has failed before. -/
  | begins {m : Machine} (before : Reachable registerCount limits m)
      (alive : m.status ≠ .failed) : Reachable registerCount limits { m with status := .running }
  | executes {m : Machine} (before : Reachable registerCount limits m)
      (running : m.status = .running) (within : m.reachedLimit? = none) (fuel : Nat)
      (i : Instruction) : Reachable registerCount limits (m.counted.step fuel i).settled
  | succeeds {m : Machine} (before : Reachable registerCount limits m)
      (running : m.status = .running) (idle : m.cursor = .idle) :
      Reachable registerCount limits { m with status := .succeeded }

theorem WellFormed.of_status {m : Machine} (wf : m.WellFormed) (alive : m.status ≠ .failed)
    (status : Status) : WellFormed { m with status } := by
  refine ⟨wf.linked, fun {p s} symbol => ?_, wf.visit, wf.registers⟩
  rcases wf.arguments symbol with full | ⟨unfilled, writes | failed⟩
  · exact .inl full
  · exact .inr ⟨unfilled, .inl writes⟩
  · exact absurd failed alive

theorem WellFormed.counted {m : Machine} (wf : m.WellFormed) : m.counted.WellFormed :=
  ⟨wf.linked, wf.arguments, wf.visit, wf.registers⟩

/-- Whatever happens to a machine, it stays well-formed. -/
theorem Reachable.wellFormed {registerCount : Nat} {limits : Limits} {m : Machine}
    (reached : Reachable registerCount limits m) : m.WellFormed := by
  induction reached with
  | new => exact wellFormed_new registerCount limits
  | begins _ alive ih => exact ih.of_status alive .running
  | executes _ running _ fuel i ih =>
      exact ih.counted.step (by simp [Machine.counted, running]) fuel i
  | succeeds _ running _ ih => exact ih.of_status (by simp [running]) .succeeded

theorem Stored.status {m m' : Machine} {x : Register} {a : Address}
    (stored : m.Stored x a (.done m')) : m'.status = m.status := by
  cases stored
  rfl

theorem Transition.status {fuel : Nat} {m m' : Machine} {i : Instruction}
    (t : Transition fuel m i (.done m')) : m'.status = m.status := by
  have newCell {x : Register} (added : m.NewVariable x (.done m')) : m'.status = m.status := by
    cases added with
    | added _ stored => exact stored.status
  have copy {x : Register} (copied : m.Copied x (.done m')) : m'.status = m.status := by
    cases copied
    rfl
  cases t with
  | put _ _ stored => exact stored.status
  | setVariable added => exact newCell added
  | setValue copied => exact copy copied
  | getWrite _ _ _ _ _ => rfl
  | getRead _ _ _ => rfl
  | unifyVariableWrite _ _ added => exact newCell added
  | unifyVariableRead _ _ stored => exact stored.status
  | unifyValueWrite _ _ copied => exact copy copied
  | unifyValueRead _ _ _ unified =>
      cases unified
      rfl

/-- Where the execution of instructions ends can be reached, whatever the end is. -/
theorem Reachable.execute {registerCount : Nat} {limits : Limits} {m : Machine}
    (reached : Reachable registerCount limits m) (running : m.status = .running) (fuel : Nat)
    (is : List Instruction) : Reachable registerCount limits (m.execute fuel is).machine := by
  induction is generalizing m with
  | nil =>
      by_cases idle : m.cursor = .idle
      · have verified := (Cursor.verifyIdle_eq_ok_iff m.cursor).mpr idle
        simp only [Machine.execute, verified]
        exact .succeeds reached running idle
      · simp only [Machine.execute, verifyIdle_of_busy idle]
        exact reached
  | cons i is ih =>
      cases within : m.reachedLimit? with
      | some maxSteps =>
          simp only [Machine.execute, within]
          exact reached
      | none =>
          have alive : m.counted.status ≠ .failed := by simp [counted, running]
          have next := reached.executes running within fuel i
          have listed := step_transition reached.wellFormed.counted alive fuel i
          rw [execute_cons within]
          cases effect : m.counted.step fuel i with
          | done m' =>
              rw [effect] at next listed
              exact ih next (listed.status.trans running)
          | failed m' =>
              rw [effect] at next
              exact next
          | error e m' =>
              rw [effect] at next
              exact next
          | unfinished m' =>
              rw [effect] at next
              exact next

theorem Reachable.run {registerCount : Nat} {limits : Limits} {m : Machine}
    (reached : Reachable registerCount limits m) (fuel : Nat) (is : List Instruction) :
    Reachable registerCount limits (m.run fuel is).machine := by
  by_cases failed : m.status = .failed
  · simp only [Machine.run, if_pos failed]
    exact reached
  · simp only [Machine.run, if_neg failed]
    exact (reached.begins failed).execute rfl fuel is

end Machine

end TermMachine
