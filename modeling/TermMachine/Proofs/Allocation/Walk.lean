import TermMachine.Allocation.Walk
import TermMachine.Proofs.Allocation.Table

/-! # The stack stays in step with the walk

The walk takes the registers of applications from a stack, and nothing says that the register on top
is the one of the application that comes next. `exists_ofTerm` shows that it always is: the walk
makes the table of `Allocation.ofTerm`, and only an application that is too wide stops it,
`exists_ofTerm_iff`.

What holds between two steps is `Ready`: the registers on the stack are those whose slots have no
arguments yet, and all other slots are complete. The walk through one part of the term takes the
register of this part from the stack and leaves what was below it, `Ready.through`, so the next part
finds its own register on top.
-/

namespace TermMachine

/-- A slot before the registers of the arguments are known. -/
def Slot.opened : Slot → Slot
  | .application name arity _ => .application name arity []
  | .var name => .var name
  | .constant => .constant

def Slot.ofNode (node : Node) : Slot := .ofEntry (.ofNode node)

/-- The slot is for the term, whatever the registers of its arguments are. -/
def Slot.For : Term → Slot → Prop
  | .var name, slot => slot = .var name
  | .atom name, slot => slot = .application name 0 []
  | .number value, slot => slot = .application (toString value) 0 []
  | .compound name args, slot => ∃ xs, slot = .application name args.length xs

theorem Slot.for_ofNode (t : Term) (x : Register) (s : Supply) :
    Slot.For t (.ofNode (Node.ofTerm t x s).1) := by
  cases t with
  | atom name => rfl
  | number value => rfl
  | var name => rfl
  | compound name args =>
      have registers := Node.registers_ofTerms (s.length_ofArguments args) (s.ofArguments args).2
      refine ⟨(s.ofArguments args).1, ?_⟩
      show Slot.application name _ _ = _
      rw [registers, s.length_ofArguments]

namespace Walk

/-- The walk has given out the registers of the supply, and has written the slots that are wanted,
those of the registers `waiting` without their arguments. -/
structure Aligned (target : Register → Slot) (waiting : List Register) (w : Walk) (s : Supply) :
    Prop where
  length : w.slots.length = s.next
  vars : w.vars = s.vars
  complete : ∀ x < s.next, x ∉ waiting → w.slots[x]? = some (target x)
  opened : ∀ x ∈ waiting, w.slots[x]? = some (target x).opened

variable {target : Register → Slot} {waiting : List Register} {w : Walk} {s : Supply}

theorem Aligned.lt (aligned : Aligned target waiting w s) {x : Register} (mem : x ∈ waiting) :
    x < s.next := by
  rw [← aligned.length]
  exact (List.getElem?_eq_some_iff.mp (aligned.opened x mem)).1

theorem Aligned.congr (aligned : Aligned target waiting w s) {waiting' : List Register}
    (same : ∀ x, x ∈ waiting' ↔ x ∈ waiting) : Aligned target waiting' w s where
  length := aligned.length
  vars := aligned.vars
  complete x lt other := aligned.complete x lt (mt (same x).mpr other)
  opened x mem := aligned.opened x ((same x).mp mem)

/-- The slot for the next register, which is one more to wait for if its arguments are not there. -/
theorem Aligned.push (aligned : Aligned target waiting w s) {slot : Slot} {new : List Register}
    (only : ∀ x ∈ new, x = s.next) (complete : s.next ∉ new → slot = target s.next)
    (opened : s.next ∈ new → slot = (target s.next).opened) :
    Aligned target (new ++ waiting) (w.push slot).2 s.fresh.2 where
  length := by simp [Walk.push, Supply.fresh, aligned.length]
  vars := aligned.vars
  complete x lt other := by
    obtain ⟨notNew, notOld⟩ := not_or.mp (mt List.mem_append.mpr other)
    rcases Nat.lt_succ_iff_lt_or_eq.mp lt with below | rfl
    · rw [Walk.push, List.getElem?_append_left (aligned.length ▸ below)]
      exact aligned.complete x below notOld
    · rw [Walk.push, ← aligned.length, List.getElem?_concat_length, aligned.length,
        complete notNew]
  opened x mem := by
    by_cases here : x = s.next
    · obtain rfl := here
      have isNew : s.next ∈ new := by
        refine (List.mem_append.mp mem).resolve_right fun old => ?_
        exact Nat.lt_irrefl _ (aligned.lt old)
      rw [Walk.push, ← aligned.length, List.getElem?_concat_length, aligned.length, opened isNew]
    · have old := (List.mem_append.mp mem).resolve_left (mt (only x) here)
      rw [Walk.push, List.getElem?_append_left (aligned.length ▸ aligned.lt old)]
      exact aligned.opened x old

/-! ## Arguments -/

theorem ofVariable_known {name : String} {x : Register} (known : w.vars.lookup name = some x) :
    w.ofVariable name = (x, w) := by
  unfold Walk.ofVariable
  rw [known]

theorem ofVariable_unknown {name : String} (unknown : w.vars.lookup name = none) :
    w.ofVariable name = (w.slots.length,
      ⟨w.slots ++ [.var name], w.vars ++ [(name, w.slots.length)], w.pending⟩) := by
  unfold Walk.ofVariable
  rw [unknown]
  rfl

theorem Aligned.ofVariable (aligned : Aligned target waiting w s) {name : String}
    (wanted : target (s.ofVariable name).1 = .var name) :
    (w.ofVariable name).1 = (s.ofVariable name).1 ∧
      Aligned target waiting (w.ofVariable name).2 (s.ofVariable name).2 ∧
      (w.ofVariable name).2.pending = w.pending := by
  unfold Supply.ofVariable at wanted ⊢
  rw [← aligned.vars] at wanted ⊢
  cases found : w.vars.lookup name with
  | some x =>
      rw [ofVariable_known found]
      exact ⟨rfl, aligned, rfl⟩
  | none =>
      rw [found] at wanted
      have pushed : Aligned target ([] ++ waiting) (w.push (.var name)).2 s.fresh.2 :=
        aligned.push nofun (fun _ => wanted.symm) nofun
      rw [ofVariable_unknown found]
      refine ⟨aligned.length, ⟨pushed.length, ?_, pushed.complete, pushed.opened⟩, rfl⟩
      show w.vars ++ [(name, w.slots.length)] = w.vars ++ [(name, s.next)]
      rw [aligned.length]

theorem Aligned.ofApplication (aligned : Aligned target waiting w s) {name : String} {arity : Nat}
    {xs new : List Register} (wanted : target s.next = .application name arity xs)
    (only : ∀ x ∈ new, x = s.next) (none : s.next ∉ new → xs = []) (fits : arity < arityBound) :
    ∃ w', w.ofApplication name arity = .ok (s.next, w') ∧
      Aligned target (new ++ waiting) w' s.fresh.2 ∧ w'.pending = w.pending := by
  refine ⟨(w.push (.application name arity [])).2, ?_, ?_, rfl⟩
  · rw [Walk.ofApplication, if_pos fits, ← aligned.length]
    rfl
  · refine aligned.push only (fun other => ?_) fun _ => ?_
    · rw [wanted, none other]
    · rw [wanted]
      rfl

theorem Aligned.ofArgument (aligned : Aligned target waiting w s) {t : Term} (fits : t.Fits)
    (wanted : Slot.For t (target (s.ofArgument t).1)) :
    ∃ w', w.ofArgument t = .ok ((s.ofArgument t).1, w') ∧
      Aligned target (ahead t (s.ofArgument t).1 ++ waiting) w' (s.ofArgument t).2 ∧
      w'.pending = w.pending := by
  cases t with
  | atom name => exact aligned.ofApplication wanted nofun (fun _ => rfl) (by decide)
  | number value => exact aligned.ofApplication wanted nofun (fun _ => rfl) (by decide)
  | var name =>
      obtain ⟨same, aligned', kept⟩ := aligned.ofVariable wanted
      refine ⟨(w.ofVariable name).2, ?_, aligned', kept⟩
      rw [Walk.ofArgument, ← show (w.ofVariable name).1 = (s.ofArgument (.var name)).1 from same]
  | compound name args =>
      obtain ⟨xs, wanted⟩ := wanted
      refine aligned.ofApplication wanted (fun x mem => List.mem_singleton.mp mem) ?_ ?_
      · exact fun other => absurd (List.mem_singleton_self _) other
      · exact fits name args (by simp [TermOf.preorder])

def aheadAll (ts : List Term) (xs : List Register) : List Register :=
  (List.zipWith ahead ts xs).flatten

theorem Aligned.ofArguments {ts : List Term} (aligned : Aligned target waiting w s)
    (fits : ∀ t ∈ ts, t.Fits)
    (wanted : List.Forall₂ (fun t x => Slot.For t (target x)) ts (s.ofArguments ts).1) :
    ∃ w', w.ofArguments ts =
        .ok ((s.ofArguments ts).1, aheadAll ts (s.ofArguments ts).1, w') ∧
      Aligned target (aheadAll ts (s.ofArguments ts).1 ++ waiting) w' (s.ofArguments ts).2 ∧
      w'.pending = w.pending := by
  induction ts generalizing waiting w s with
  | nil => exact ⟨w, rfl, aligned, rfl⟩
  | cons t ts ih =>
      cases wanted with
      | cons first rest =>
          obtain ⟨w₁, head, aligned₁, kept₁⟩ :=
            aligned.ofArgument (fits t List.mem_cons_self) first
          obtain ⟨w₂, tail, aligned₂, kept₂⟩ :=
            ih aligned₁ (fun t mem => fits t (List.mem_cons_of_mem _ mem)) rest
          refine ⟨w₂, ?_, aligned₂.congr fun x => ?_, kept₂.trans kept₁⟩
          · simp only [Walk.ofArguments, head, tail]
            rfl
          · simp only [aheadAll, Supply.ofArguments, List.zipWith_cons_cons, List.flatten_cons,
              List.mem_append]
            tauto

theorem aheadAll_cons (t : Term) (ts : List Term) (x : Register) (xs : List Register) :
    aheadAll (t :: ts) (x :: xs) = ahead t x ++ aheadAll ts xs := rfl

/-- The registers that the walk has still to go into are new ones, and different. -/
theorem aheadAll_new (s : Supply) (ts : List Term) :
    (aheadAll ts (s.ofArguments ts).1).Nodup ∧
      ∀ x ∈ aheadAll ts (s.ofArguments ts).1, s.next ≤ x := by
  induction ts generalizing s with
  | nil => exact ⟨List.nodup_nil, nofun⟩
  | cons t ts ih =>
      obtain ⟨nodup, above⟩ := ih (s.ofArgument t).2
      rw [Supply.ofArguments, aheadAll_cons]
      cases t with
      | atom name => exact ⟨nodup, fun x mem => Nat.le_of_succ_le (above x mem)⟩
      | number value => exact ⟨nodup, fun x mem => Nat.le_of_succ_le (above x mem)⟩
      | var name =>
          have next := (Supply.ofVariable_balanced s name).1.next
          exact ⟨nodup, fun x mem => Nat.le_trans next (above x mem)⟩
      | compound name args =>
          refine ⟨List.nodup_cons.mpr ⟨fun mem => ?_, nodup⟩, fun x mem => ?_⟩
          · exact Nat.not_succ_le_self _ (above _ mem)
          · rcases List.mem_cons.mp mem with rfl | mem
            · exact Nat.le_refl _
            · exact Nat.le_of_succ_le (above x mem)

/-! ## Steps -/

theorem Aligned.withPending (aligned : Aligned target waiting w s) (pending : List Register) :
    Aligned target waiting { w with pending } s :=
  ⟨aligned.length, aligned.vars, aligned.complete, aligned.opened⟩

theorem Aligned.fill {x : Register} (aligned : Aligned target (x :: waiting) w s)
    (once : x ∉ waiting) {name : String} {arity : Nat} {xs : List Register}
    (own : target x = .application name arity xs) :
    ∃ w', w.fill x xs = .ok w' ∧ w'.pending = w.pending ∧ Aligned target waiting w' s := by
  have slot : w.slots[x]? = some (.application name arity []) := by
    rw [aligned.opened x List.mem_cons_self, own]
    rfl
  have lt : x < w.slots.length := (List.getElem?_eq_some_iff.mp slot).1
  refine ⟨{ w with slots := w.slots.set x (target x) }, ?_, rfl, ?_, aligned.vars, ?_, ?_⟩
  · simp only [Walk.fill, slot, own]
  · rw [List.length_set, aligned.length]
  · intro y below other
    by_cases here : y = x
    · obtain rfl := here
      exact List.getElem?_set_self lt
    · rw [List.getElem?_set_ne (Ne.symm here)]
      exact aligned.complete y below (List.not_mem_cons_of_ne_of_not_mem here other)
  · intro y mem
    have other : x ≠ y := fun same => once (same ▸ mem)
    rw [List.getElem?_set_ne other]
    exact aligned.opened y (List.mem_cons_of_mem _ mem)

/-- Between two steps of the walk, the registers without arguments are those on the stack. -/
structure Ready (target : Register → Slot) (w : Walk) (s : Supply) : Prop where
  nodup : w.pending.Nodup
  aligned : Aligned target w.pending w s

/-- A step at an application that finds its own register on the stack. -/
theorem Ready.visit (ready : Ready target w s) {x : Register} {rest : List Register} {name : String}
    {args : List Term} (top : w.pending = x :: rest) (fits : ∀ t ∈ args, t.Fits)
    (own : target x = .application name args.length (s.ofArguments args).1)
    (wanted : List.Forall₂ (fun t y => Slot.For t (target y)) args (s.ofArguments args).1) :
    ∃ w', w.visit (.compound name args) = .ok w' ∧
      w'.pending = aheadAll args (s.ofArguments args).1 ++ rest ∧
      Ready target w' (s.ofArguments args).2 := by
  obtain ⟨nodup, aligned⟩ := ready
  rw [top] at nodup aligned
  obtain ⟨notRest, restNodup⟩ := List.nodup_cons.mp nodup
  obtain ⟨newNodup, above⟩ := aheadAll_new s args
  have old : ∀ y ∈ x :: rest, y ∉ aheadAll args (s.ofArguments args).1 :=
    fun y mem new => Nat.not_le.mpr (aligned.lt mem) (above y new)
  have stack : (aheadAll args (s.ofArguments args).1 ++ rest).Nodup := by
    refine List.nodup_append.mpr ⟨newNodup, restNodup, fun y new z mem same => ?_⟩
    exact old z (List.mem_cons_of_mem _ mem) (same ▸ new)
  obtain ⟨w₁, numbered, aligned₁, _⟩ := aligned.ofArguments fits wanted
  have once : x ∉ aheadAll args (s.ofArguments args).1 ++ rest :=
    fun mem => (List.mem_append.mp mem).elim (old x List.mem_cons_self) notRest
  have opened : Aligned target (x :: (aheadAll args (s.ofArguments args).1 ++ rest)) w₁
      (s.ofArguments args).2 :=
    aligned₁.congr fun y => by simp [or_left_comm]
  obtain ⟨w₂, filled, kept, aligned₂⟩ :=
    (opened.withPending (aheadAll args (s.ofArguments args).1 ++ rest)).fill once own
  refine ⟨w₂, ?_, kept, ?_, ?_⟩
  · simp only [Walk.visit, top, numbered, filled]
  · rw [kept]
    exact stack
  · rw [kept]
    exact aligned₂

/-! ## Runs -/

/-- From `w` the walk goes through the parts in the list and comes to a state with the stack
`rest`. -/
def Through (target : Register → Slot) (w : Walk) (parts : List Term) (rest : List Register)
    (s : Supply) : Prop :=
  ∃ w', parts.foldlM visit w = .ok w' ∧ w'.pending = rest ∧ Ready target w' s

theorem wanted_of_ofTerms {ts : List Term} {xs : List Register} (len : xs.length = ts.length)
    (nodes : ∀ n ∈ (Node.ofTerms ts xs s).1, target n.register = .ofNode n) :
    List.Forall₂ (fun t x => Slot.For t (target x)) ts xs := by
  induction ts generalizing xs s with
  | nil =>
      cases List.eq_nil_of_length_eq_zero len
      exact .nil
  | cons t ts ih =>
      cases xs with
      | nil => cases len
      | cons x xs =>
          have first := nodes (Node.ofTerm t x s).1 List.mem_cons_self
          rw [Node.register_ofTerm] at first
          have later : ∀ n ∈ (Node.ofTerms ts xs (Node.ofTerm t x s).2).1,
              target n.register = .ofNode n := fun n mem => nodes n (List.mem_cons_of_mem _ mem)
          exact .cons (first ▸ Slot.for_ofNode t x s) (ih (Nat.succ.inj len) later)

/-- The walk through several parts, if it goes through each of them with its register on top. -/
theorem Ready.throughAll {ts : List Term}
    (each : ∀ t ∈ ts, ∀ {w : Walk} {s : Supply} {x : Register} {rest : List Register},
      Ready target w s → w.pending = ahead t x ++ rest →
      (∀ n ∈ (Node.ofTerm t x s).1.preorder, target n.register = .ofNode n) →
      Through target w t.preorder rest (Node.ofTerm t x s).2)
    (ready : Ready target w s) {xs rest : List Register} (len : xs.length = ts.length)
    (top : w.pending = aheadAll ts xs ++ rest)
    (nodes : ∀ node ∈ (Node.ofTerms ts xs s).1, ∀ n ∈ node.preorder,
      target n.register = .ofNode n) :
    Through target w (TermOf.preorderAll ts) rest (Node.ofTerms ts xs s).2 := by
  induction ts generalizing w s xs with
  | nil => exact ⟨w, rfl, top, ready⟩
  | cons t ts ih =>
      cases xs with
      | nil => cases len
      | cons x xs =>
          rw [aheadAll_cons, List.append_assoc] at top
          obtain ⟨w₁, first, top₁, ready₁⟩ :=
            each t List.mem_cons_self ready top (nodes _ List.mem_cons_self)
          obtain ⟨w₂, later, top₂, ready₂⟩ :=
            ih (fun t mem => each t (List.mem_cons_of_mem _ mem)) ready₁ (Nat.succ.inj len) top₁
              fun node mem => nodes node (List.mem_cons_of_mem _ mem)
          refine ⟨w₂, ?_, top₂, ready₂⟩
          rw [TermOf.preorderAll, List.foldlM_append, first]
          exact later

/-- The walk through a part of the term takes the register of this part from the stack. -/
theorem Ready.through {t : Term} (ready : Ready target w s) (fits : t.Fits) {x : Register}
    {rest : List Register} (top : w.pending = ahead t x ++ rest)
    (nodes : ∀ n ∈ (Node.ofTerm t x s).1.preorder, target n.register = .ofNode n) :
    Through target w t.preorder rest (Node.ofTerm t x s).2 := by
  induction t using TermOf.induction generalizing w s x rest with
  | atom name => exact ⟨w, rfl, top, ready⟩
  | number value => exact ⟨w, rfl, top, ready⟩
  | var name => exact ⟨w, rfl, top, ready⟩
  | compound name args ih =>
      have inside : ∀ arg ∈ args, Term.Fits arg := fun arg mem g as part =>
        fits g as (List.mem_cons_of_mem _ (Term.mem_preorderAll_iff.mpr ⟨arg, mem, part⟩))
      have len := s.length_ofArguments args
      have below : ∀ node ∈ (Node.ofTerms args (s.ofArguments args).1 (s.ofArguments args).2).1,
          ∀ n ∈ node.preorder, target n.register = .ofNode n :=
        fun node mem n part => nodes n (Node.mem_preorder_compound.mpr (.inr ⟨node, mem, part⟩))
      have wanted := wanted_of_ofTerms len fun n mem => below n mem n (Node.mem_preorder_self n)
      have own : target x = .application name args.length (s.ofArguments args).1 := by
        refine (nodes _ (Node.mem_preorder_self _)).trans ?_
        show Slot.application name _ _ = _
        rw [Node.registers_ofTerms len, len]
      obtain ⟨w₁, visited, top₁, ready₁⟩ := ready.visit top inside own wanted
      obtain ⟨w₂, walked, top₂, ready₂⟩ :=
        ready₁.throughAll (fun t mem _ _ _ _ ready => ih t mem ready (inside t mem)) len top₁ below
      refine ⟨w₂, ?_, top₂, ready₂⟩
      rw [TermOf.preorder, List.foldlM_cons, visited]
      exact walked

def slotOf (t : Term) (x : Register) : Slot :=
  (((Allocation.ofTerm t).entries[x]?).map Slot.ofEntry).getD .constant

theorem slotOf_part {t : Term} {n : Node} (part : n ∈ (Allocation.ofTerm t).root.preorder) :
    slotOf t n.register = .ofNode n := by
  rw [slotOf, Allocation.entry_of_part part]
  rfl

theorem ready_start (name : String) (args : List Term) :
    Ready (slotOf (.compound name args)) ⟨[.application name args.length []], [], [0]⟩
      .start where
  nodup := List.nodup_singleton 0
  aligned := by
    refine ⟨rfl, rfl, fun x below other => ?_, fun x mem => ?_⟩
    · exact absurd (List.mem_singleton.mpr (Nat.lt_one_iff.mp below)) other
    · obtain rfl := List.mem_singleton.mp mem
      have root : slotOf (.compound name args) 0 =
          .ofNode (Node.ofTerm (.compound name args) 0 .start).1 :=
        slotOf_part (Node.mem_preorder_self _)
      obtain ⟨xs, wanted⟩ := Slot.for_ofNode (.compound name args) 0 .start
      rw [root, wanted]
      rfl

/-- The walk through a term gives the same registers as the term's allocation. -/
theorem exists_ofTerm {t : Term} (fits : t.Fits) :
    ∃ w, ofTerm t = .ok w ∧ w.slots = (Allocation.ofTerm t).entries.map Slot.ofEntry ∧
      w.vars = (Allocation.ofTerm t).vars := by
  cases t with
  | atom name => exact ⟨_, rfl, rfl, rfl⟩
  | number value => exact ⟨_, rfl, rfl, rfl⟩
  | var name => exact ⟨_, rfl, rfl, rfl⟩
  | compound name args =>
      have bound : args.length < arityBound := fits name args List.mem_cons_self
      have walk : Through _ _ _ [] _ :=
        (ready_start name args).through fits rfl fun n part => slotOf_part part
      obtain ⟨w, walked, top, ready⟩ := walk
      have same := ready.aligned
      rw [top] at same
      refine ⟨w, ?_, List.ext_getElem? fun x => ?_, same.vars⟩
      · simp only [ofTerm, ofRoot, ofApplication, if_pos bound]
        exact walked
      · rw [List.getElem?_map]
        by_cases lt : x < (Allocation.ofTerm (.compound name args)).registerCount
        · obtain ⟨n, part, rfl, _⟩ := Allocation.exists_node (.compound name args) lt
          rw [same.complete _ lt nofun, slotOf_part part, Allocation.entry_of_part part]
          rfl
        · have beyond := Nat.le_of_not_lt lt
          rw [List.getElem?_eq_none (same.length.trans_le beyond),
            List.getElem?_eq_none ((Allocation.length_entries _).trans_le beyond)]
          rfl

/-! ## Failures -/

theorem lt_of_ofApplication {name : String} {arity : Nat} {x : Register} {w' : Walk}
    (done : w.ofApplication name arity = .ok (x, w')) : arity < arityBound := by
  by_contra wide
  simp [ofApplication, wide] at done

theorem lt_of_ofArguments {ts : List Term} {result : List Register × List Register × Walk}
    (done : w.ofArguments ts = .ok result) {name : String} {args : List Term}
    (mem : .compound name args ∈ ts) : args.length < arityBound := by
  induction ts generalizing w result with
  | nil => cases mem
  | cons t ts ih =>
      rw [ofArguments] at done
      cases first : w.ofArgument t with
      | error e => simp [first] at done
      | ok pair =>
          cases rest : pair.2.ofArguments ts with
          | error e => simp [first, rest] at done
          | ok result' =>
              rcases List.mem_cons.mp mem with rfl | mem
              · exact lt_of_ofApplication first
              · exact ih rest mem

theorem lt_of_visit {t : Term} {w' : Walk} (done : w.visit t = .ok w') {name : String}
    {args : List Term} (mem : .compound name args ∈ t.args) : args.length < arityBound := by
  cases t with
  | atom f => cases mem
  | number value => cases mem
  | var v => cases mem
  | compound f ts =>
      rw [visit] at done
      cases top : w.pending with
      | nil => simp [top] at done
      | cons x rest =>
          cases numbered : w.ofArguments ts with
          | error e => simp [top, numbered] at done
          | ok result => exact lt_of_ofArguments numbered mem

theorem exists_visit {parts : List Term} {w' : Walk} (done : parts.foldlM visit w = .ok w')
    {t : Term} (mem : t ∈ parts) : ∃ w₁ w₂ : Walk, w₁.visit t = .ok w₂ := by
  induction parts generalizing w with
  | nil => cases mem
  | cons part parts ih =>
      rw [List.foldlM_cons] at done
      cases first : w.visit part with
      | error e =>
          rw [first] at done
          cases done
      | ok w₁ =>
          rw [first] at done
          rcases List.mem_cons.mp mem with rfl | mem
          · exact ⟨w, w₁, first⟩
          · exact ih done mem

/-- The walk comes to its end exactly if no application is too wide. -/
theorem exists_ofTerm_iff {t : Term} : (∃ w, ofTerm t = .ok w) ↔ t.Fits := by
  refine ⟨fun ⟨w, done⟩ name args part => ?_, fun fits => ?_⟩
  · rw [ofTerm] at done
    cases root : ofRoot ⟨[], [], []⟩ t with
    | error e => simp [root] at done
    | ok pair =>
        simp only [root] at done
        rcases List.mem_cons.mp (Term.mem_preorder_iff.mp part) with rfl | below
        · exact lt_of_ofApplication root
        · obtain ⟨s, hs, mem⟩ := List.mem_flatMap.mp below
          obtain ⟨w₁, w₂, visited⟩ := exists_visit done hs
          exact lt_of_visit visited mem
  · obtain ⟨w, done, _⟩ := exists_ofTerm fits
    exact ⟨w, done⟩

/-! ## The whole walk -/

/-- A term whose arities a structure can hold is taken apart without a failure. -/
theorem flattens_term {t : Term} (fits : t.Fits) :
    ∃ w, ofTerm t = .ok w ∧ w.slots = (Allocation.ofTerm t).entries.map Slot.ofEntry ∧
      w.vars = (Allocation.ofTerm t).vars ∧ (Allocation.ofTerm t).Flattens t := by
  obtain ⟨w, walked, slots, vars⟩ := exists_ofTerm fits
  exact ⟨w, walked, slots, vars, Allocation.ofTerm_flattens t⟩

/-- In `p(Z, h(Z, W), f(W))` the register of `W` is handed out inside `h` and found again in `f`. -/
theorem flattens_term_shared :
    let t : Term := .compound "p"
      [.var "Z", .compound "h" [.var "Z", .var "W"], .compound "f" [.var "W"]]
    t.Fits ∧ (Allocation.ofTerm t).entries = [.compound "p" [1, 2, 3], .var "Z",
      .compound "h" [1, 4], .compound "f" [4], .var "W"] ∧
    ∃ w, ofTerm t = .ok w ∧ w.slots = (Allocation.ofTerm t).entries.map Slot.ofEntry ∧
      w.vars = (Allocation.ofTerm t).vars ∧ (Allocation.ofTerm t).Flattens t := by
  intro t
  have fits : t.Fits := Term.tooWide?_eq_none_iff.mp (by decide)
  exact ⟨fits, by decide, flattens_term fits⟩

end Walk

end TermMachine
