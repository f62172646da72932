import TermMachine.Proofs.Reader.Progress

/-! # Reading further on in a source

If all items stand `d` further on, then so does everything that a reader has to say about them: the
failures, what is left over, and the places in its values. `Moves` says that of a reader, with the
function that moves the places in a value.

Where the source stops matters only to readers that get to the end of the items. If the last item is
one that no reader takes, they never do, and the source may stop anywhere (`Fits`).
-/

namespace TermMachine

/-! ## Moving failures and inputs -/

def Failure.shift {ι : Type} (d : Nat) (e : Failure ι) : Failure ι :=
  { e with position := e.position + d, span := e.span.shift d }

/-- The input `d` further on, in a source that stops at `finish`. -/
def Input.shift {ι : Type} (d finish : Nat) (input : Input ι) : Input ι :=
  ⟨input.items.map (Prod.map id (Span.shift d)), input.previousStop + d, finish⟩

def Reply.shift {ι α : Type} (d finish : Nat) (move : α → α) : Reply ι α → Reply ι α
  | .ok value rest passed =>
      .ok (move value) (rest.shift d finish) (passed.map (Failure.shift d))
  | .failed e => .failed (e.shift d)

def shiftOutcome {α : Type} (d : Nat) (move : α → α) :
    Except (Span × Complaint) α → Except (Span × Complaint) α
  | .ok value => .ok (move value)
  | .error (span, complaint) => .error (span.shift d, complaint)

namespace Failure

variable {ι : Type} [BEq ι] {d : Nat}

theorem furthest_shift (a b : Failure ι) :
    (a.shift d).furthest (b.shift d) = (a.furthest b).shift d := by
  have positions (a b : Failure ι) :
      (a.shift d).position < (b.shift d).position ↔ a.position < b.position :=
    Nat.add_lt_add_iff_right
  unfold furthest
  simp only [positions]
  split
  · rfl
  · split <;> rfl

theorem join_shift (a b : Option (Failure ι)) :
    join (a.map (shift d)) (b.map (shift d)) = (join a b).map (shift d) := by
  cases a <;> cases b <;> simp [join, furthest_shift]

theorem furthestOf_shift (a : Failure ι) (b : Option (Failure ι)) :
    (a.shift d).furthestOf (b.map (shift d)) = (a.furthestOf b).shift d := by
  cases b <;> simp [furthestOf, furthest_shift]

end Failure

namespace Reader

variable {ι α β : Type} {ends : ι} {d finish : Nat} {input rest : Input ι}
  {p : Reader ι α} {q : Reader ι β} {move : α → α} {move' : β → β}
  {placed : α → Prop} {placed' : β → Prop}

/-! ## Where the source stops -/

/-- The last item, and only that one, is the one that ends the input. -/
def Guarded (ends : ι) (items : List (ι × Span)) : Prop :=
  ∃ front span, items = front ++ [(ends, span)] ∧ ∀ item ∈ front, item.1 ≠ ends

theorem Guarded.ne_nil {items : List (ι × Span)} (guarded : Guarded ends items) : items ≠ [] := by
  obtain ⟨front, span, rfl, _⟩ := guarded
  exact List.append_ne_nil_of_right_ne_nil _ (List.cons_ne_nil _ _)

theorem guarded_single (ends : ι) (span : Span) : Guarded ends [(ends, span)] :=
  ⟨[], span, rfl, List.forall_mem_nil _⟩

theorem Guarded.cons {item : ι × Span} {items : List (ι × Span)} (guarded : Guarded ends items)
    (inside : item.1 ≠ ends) : Guarded ends (item :: items) := by
  obtain ⟨front, span, rfl, others⟩ := guarded
  exact ⟨item :: front, span, rfl, List.forall_mem_cons.mpr ⟨inside, others⟩⟩

theorem Guarded.tail {item : ι × Span} {items : List (ι × Span)}
    (guarded : Guarded ends (item :: items)) (inside : item.1 ≠ ends) : Guarded ends items := by
  obtain ⟨front, span, split, others⟩ := guarded
  cases front with
  | nil =>
      cases split
      exact absurd rfl inside
  | cons first front =>
      cases split
      exact ⟨front, span, rfl, (List.forall_mem_cons.mp others).2⟩

/-- The input can be moved `d` further on in a source that stops at `finish`: the source stops `d`
further on as well, or the end of the input is not come to. No item stands at the very start. -/
structure Fits (ends : ι) (d finish : Nat) (input : Input ι) : Prop where
  stops : finish = input.finish + d ∨ Guarded ends input.items
  placed : ∀ item ∈ input.items, 0 < item.2.stop

theorem Fits.offset (fits : Fits ends d finish input) :
    (input.shift d finish).offset = input.offset + d := by
  obtain ⟨items, stop, finish'⟩ := input
  cases items with
  | nil => exact fits.stops.resolve_right fun guarded => guarded.ne_nil rfl
  | cons item items => rfl

theorem Fits.spanTo (fits : Fits ends d finish input) (rest : Input ι) :
    (input.shift d finish).spanTo (rest.shift d finish) = (input.spanTo rest).shift d := by
  unfold Input.spanTo Span.shift
  rw [fits.offset]
  rfl

/-- Something has been read, and it stops behind the very start. -/
theorem Fits.stop_pos {value : α} (fits : Fits ends d finish input) (consumes : p.Consumes)
    (ok : (p input).result? = some (value, rest)) : 0 < (input.spanTo rest).stop := by
  obtain ⟨read, took, nonempty⟩ := consumes input value rest ok
  have placed : ∀ item ∈ read, 0 < item.2.stop := fun item mem =>
    fits.placed item (took.items ▸ List.mem_append_left _ mem)
  show 0 < rest.previousStop
  rw [took.stop]
  exact stopAfter_pos nonempty placed _

/-! ## Readers -/

/-- The reader does the same with items that stand `d` further on, with values that are moved. In
its values everything has a place, and it does not take the item that ends the input. -/
structure Moves (ends : ι) (d : Nat) (move : α → α) (placed : α → Prop) (p : Reader ι α) :
    Prop where
  replies : ∀ {input finish}, Fits ends d finish input →
    p (input.shift d finish) = (p input).shift d finish move
  keeps : ∀ {input finish value rest passed}, Fits ends d finish input →
    p input = .ok value rest passed → placed value ∧ Fits ends d finish rest

theorem shift_item {expected : List (Option ι)} {f : ι → Span → Option α}
    (moved : ∀ x span, 0 < span.stop → f x (span.shift d) = (f x span).map move)
    (fits : Fits ends d finish input) :
    item expected f (input.shift d finish) = (item expected f input).shift d finish move := by
  obtain ⟨items, stop, finish'⟩ := input
  cases items with
  | nil =>
      obtain rfl : finish = finish' + d :=
        fits.stops.resolve_right fun guarded => guarded.ne_nil rfl
      rfl
  | cons first items =>
      obtain ⟨x, span⟩ := first
      have here := moved x span (fits.placed _ List.mem_cons_self)
      simp only [item, Input.shift, List.map_cons, Prod.map, id, here]
      cases f x span <;> rfl

theorem moves_item {expected : List (Option ι)} {f : ι → Span → Option α}
    (moved : ∀ x span, 0 < span.stop → f x (span.shift d) = (f x span).map move ∧
      ∀ value, f x span = some value → placed value)
    (inside : ∀ span, f ends span = none) : Moves ends d move placed (item expected f) where
  replies := shift_item fun x span positive => (moved x span positive).1
  keeps := by
    rintro ⟨items, stop, finish'⟩ finish value rest passed fits ok
    cases items with
    | nil => cases ok
    | cons first items =>
        obtain ⟨x, span⟩ := first
        obtain ⟨here, others⟩ := List.forall_mem_cons.mp fits.placed
        simp only [item] at ok
        split at ok
        · next found =>
            cases ok
            refine ⟨(moved x span here).2 _ found, fits.stops.imp_right fun guarded => ?_, others⟩
            refine guarded.tail fun same : x = ends => ?_
            rw [same, inside] at found
            cases found
        · cases ok

theorem shift_exactly [BEq ι] (x : ι) (fits : Fits ends d finish input) :
    exactly x (input.shift d finish) = (exactly x input).shift d finish id :=
  shift_item (fun _ _ _ => by rw [Option.map_id, id]) fits

theorem moves_exactly [BEq ι] [LawfulBEq ι] {x : ι} (inside : x ≠ ends) :
    Moves ends d id (fun _ => True) (exactly x) := by
  refine moves_item (fun y span _ => ⟨?_, fun _ _ => trivial⟩) fun span => ?_
  · rw [Option.map_id, id]
  · rw [if_neg]
    rw [beq_iff_eq]
    exact inside.symm

theorem shift_finished (d finish : Nat) (input : Input ι) :
    finished (input.shift d finish) = (finished input).shift d finish id := by
  obtain ⟨items, stop, finish'⟩ := input
  cases items <;> rfl

theorem Moves.map (moves : Moves ends d move placed p) (f : α → β)
    (moved : ∀ value, placed value → f (move value) = move' (f value) ∧ placed' (f value)) :
    Moves ends d move' placed' (p.map f) where
  replies {input finish} fits := by
    unfold Reader.map
    rw [moves.replies fits]
    cases read : p input with
    | failed e => rfl
    | ok value rest passed =>
        simp only [Reply.shift, (moved value (moves.keeps fits read).1).1]
  keeps {input finish value rest passed} fits ok := by
    unfold Reader.map at ok
    split at ok
    · next read =>
        cases ok
        exact (moves.keeps fits read).imp_left fun here => (moved _ here).2
    · cases ok

/-- What is made of a value and the stretch it was read from. -/
theorem Moves.mapSpan (moves : Moves ends d move placed p) (consumes : p.Consumes)
    (f : α → Span → β)
    (moved : ∀ value span, placed value → 0 < span.stop →
      f (move value) (span.shift d) = move' (f value span) ∧ placed' (f value span)) :
    Moves ends d move' placed' (p.mapSpan f) where
  replies {input finish} fits := by
    unfold Reader.mapSpan
    rw [moves.replies fits]
    cases read : p input with
    | failed e => rfl
    | ok value rest passed =>
        have stop := fits.stop_pos consumes (congrArg Reply.result? read)
        simp only [Reply.shift, fits.spanTo,
          (moved value _ (moves.keeps fits read).1 stop).1]
  keeps {input finish value rest passed} fits ok := by
    unfold Reader.mapSpan at ok
    split at ok
    · next read =>
        cases ok
        have stop := fits.stop_pos consumes (congrArg Reply.result? read)
        exact (moves.keeps fits read).imp_left fun here => (moved _ _ here stop).2
    · cases ok

theorem Moves.check (moves : Moves ends d move placed p) (consumes : p.Consumes)
    (f : α → Span → Except (Span × Complaint) β)
    (moved : ∀ value span, placed value → 0 < span.stop →
      f (move value) (span.shift d) = shiftOutcome d move' (f value span) ∧
        ∀ value', f value span = .ok value' → placed' value') :
    Moves ends d move' placed' (p.check f) where
  replies {input finish} fits := by
    unfold Reader.check
    rw [moves.replies fits]
    cases read : p input with
    | failed e => rfl
    | ok value rest passed =>
        have stop := fits.stop_pos consumes (congrArg Reply.result? read)
        obtain ⟨here, fits'⟩ := moves.keeps fits read
        simp only [Reply.shift, fits.spanTo, fits'.offset, (moved value _ here stop).1]
        cases f value (input.spanTo rest) <;> rfl
  keeps {input finish value rest passed} fits ok := by
    unfold Reader.check at ok
    split at ok
    · next read =>
        have stop := fits.stop_pos consumes (congrArg Reply.result? read)
        split at ok
        · next passes =>
            cases ok
            exact (moves.keeps fits read).imp_left fun here => (moved _ _ here stop).2 _ passes
        · cases ok
    · cases ok

theorem shift_map {f : α → β} (moved : p (input.shift d finish) = (p input).shift d finish move)
    (same : ∀ value, f (move value) = move' (f value)) :
    p.map f (input.shift d finish) = (p.map f input).shift d finish move' := by
  unfold Reader.map
  rw [moved]
  cases p input with
  | failed e => rfl
  | ok value rest passed => simp only [Reply.shift, same]

theorem shift_labelled (label : String)
    (moved : p (input.shift d finish) = (p input).shift d finish move) :
    p.labelled label (input.shift d finish) = (p.labelled label input).shift d finish move := by
  unfold Reader.labelled
  rw [moved]
  cases p input <;> rfl

theorem Moves.labelled (moves : Moves ends d move placed p) (label : String) :
    Moves ends d move placed (p.labelled label) where
  replies fits := shift_labelled label (moves.replies fits)
  keeps {input finish value rest passed} fits ok := by
    unfold Reader.labelled at ok
    split at ok
    · next read =>
        cases ok
        exact moves.keeps fits read
    · cases ok

/-- What is optional is there `d` further on, or is not there. -/
theorem Moves.optional (moves : Moves ends d move placed p) :
    Moves ends d (Option.map move) (∀ value ∈ ·, placed value) p.optional where
  replies {input finish} fits := by
    unfold Reader.optional
    rw [moves.replies fits]
    cases p input <;> rfl
  keeps {input finish value rest passed} fits ok := by
    unfold Reader.optional at ok
    split at ok
    · next read =>
        cases ok
        exact (moves.keeps fits read).imp_left fun here _ mem => Option.some.inj mem ▸ here
    · cases ok
      exact ⟨nofun, fits⟩

variable [BEq ι]

theorem shift_pair (first : p (input.shift d finish) = (p input).shift d finish move)
    (second : ∀ value rest passed, p input = .ok value rest passed →
      q (rest.shift d finish) = (q rest).shift d finish move') :
    (p.pair q) (input.shift d finish) =
      ((p.pair q) input).shift d finish (Prod.map move move') := by
  unfold Reader.pair
  rw [first]
  cases read : p input with
  | failed e => rfl
  | ok value rest passed =>
      simp only [Reply.shift, second value rest passed read]
      cases q rest with
      | failed e => simp only [Failure.furthestOf_shift]
      | ok value' rest' passed' => simp only [Failure.join_shift]; rfl

theorem shift_first (first : p (input.shift d finish) = (p input).shift d finish move)
    (second : ∀ value rest passed, p input = .ok value rest passed →
      q (rest.shift d finish) = (q rest).shift d finish move') :
    (p.first q) (input.shift d finish) = ((p.first q) input).shift d finish move :=
  shift_map (shift_pair first second) fun _ => rfl

theorem Moves.pair (first : Moves ends d move placed p) (second : Moves ends d move' placed' q) :
    Moves ends d (Prod.map move move') (fun v => placed v.1 ∧ placed' v.2) (p.pair q) where
  replies fits := shift_pair (first.replies fits) fun _ _ _ read =>
    second.replies (first.keeps fits read).2
  keeps {input finish value rest passed} fits ok := by
    unfold Reader.pair at ok
    split at ok
    · cases ok
    · next read =>
        obtain ⟨here, fits'⟩ := first.keeps fits read
        split at ok
        · cases ok
        · next read' =>
            cases ok
            obtain ⟨here', fits''⟩ := second.keeps fits' read'
            exact ⟨⟨here, here'⟩, fits''⟩

theorem Moves.first (first : Moves ends d move placed p) (second : Moves ends d move' placed' q) :
    Moves ends d move placed (p.first q) :=
  (first.pair second).map _ fun _ here => ⟨rfl, here.1⟩

theorem Moves.second (first : Moves ends d move placed p) (second : Moves ends d move' placed' q) :
    Moves ends d move' placed' (p.second q) :=
  (first.pair second).map _ fun _ here => ⟨rfl, here.2⟩

theorem Moves.between [LawfulBEq ι] {opening closing : ι} (moves : Moves ends d move placed p)
    (inside : opening ≠ ends) (inside' : closing ≠ ends) :
    Moves ends d move placed (between opening closing p) :=
  ((moves_exactly inside).second moves).first (moves_exactly inside')

theorem Moves.choiceAfter {ps : List (Reader ι α)} (each : ∀ p ∈ ps, Moves ends d move placed p)
    (fits : Fits ends d finish input) (e : Failure ι) :
    Reader.choiceAfter (e.shift d) ps (input.shift d finish) =
        (Reader.choiceAfter e ps input).shift d finish move ∧
      ∀ value rest passed, Reader.choiceAfter e ps input = .ok value rest passed →
        placed value ∧ Fits ends d finish rest := by
  induction ps generalizing e with
  | nil => exact ⟨rfl, nofun⟩
  | cons p ps ih =>
      obtain ⟨moves, others⟩ := List.forall_mem_cons.mp each
      unfold Reader.choiceAfter
      rw [moves.replies fits]
      cases read : p input with
      | ok value rest passed =>
          refine ⟨rfl, fun value rest passed ok => ?_⟩
          cases ok
          exact moves.keeps fits read
      | failed e' =>
          have later := ih others (e'.furthest e)
          rw [← Failure.furthest_shift] at later
          exact later

theorem moves_choice {ps : List (Reader ι α)} (first : Moves ends d move placed p)
    (others : ∀ p' ∈ ps, Moves ends d move placed p') :
    Moves ends d move placed (choice p ps) where
  replies {input finish} fits := by
    unfold Reader.choice
    rw [first.replies fits]
    cases p input with
    | ok value rest passed => rfl
    | failed e => exact (Moves.choiceAfter others fits e).1
  keeps {input finish value rest passed} fits ok := by
    unfold Reader.choice at ok
    split at ok
    · next read =>
        cases ok
        exact first.keeps fits read
    · next e _ => exact (Moves.choiceAfter others fits e).2 _ _ _ ok

theorem Moves.manyUpTo (moves : Moves ends d move placed p) (n : Nat)
    (fits : Fits ends d finish input) (passed : Option (Failure ι)) :
    Reader.manyUpTo p n (passed.map (Failure.shift d)) (input.shift d finish) =
        (Reader.manyUpTo p n passed input).shift d finish (List.map move) ∧
      ∀ values rest passed', Reader.manyUpTo p n passed input = .ok values rest passed' →
        (∀ value ∈ values, placed value) ∧ Fits ends d finish rest := by
  induction n generalizing input passed with
  | zero =>
      refine ⟨rfl, fun values rest passed' ok => ?_⟩
      cases ok
      exact ⟨nofun, fits⟩
  | succ n ih =>
      unfold Reader.manyUpTo
      rw [moves.replies fits]
      cases read : p input with
      | failed e =>
          refine ⟨?_, fun values rest passed' ok => ?_⟩
          · simp only [Reply.shift, List.map_nil, ← Failure.join_shift, Option.map_some]
          · cases ok
            exact ⟨nofun, fits⟩
      | ok value rest passed' =>
          obtain ⟨here, fits'⟩ := moves.keeps fits read
          obtain ⟨later, kept⟩ := ih fits' (Failure.join passed passed')
          constructor
          · simp only [Reply.shift, Failure.join_shift, Reader.map, later]
            cases Reader.manyUpTo p n (Failure.join passed passed') rest <;> rfl
          · intro values rest' passed'' ok
            simp only [Reader.map] at ok
            split at ok
            · next others =>
                cases ok
                obtain ⟨placed', fits''⟩ := kept _ _ _ others
                exact ⟨List.forall_mem_cons.mpr ⟨here, placed'⟩, fits''⟩
            · cases ok

theorem Moves.many1 (moves : Moves ends d move placed p) :
    Moves ends d (List.map move) (∀ value ∈ ·, placed value) p.many1 where
  replies {input finish} fits := by
    unfold Reader.many1
    rw [moves.replies fits]
    cases read : p input with
    | failed e => rfl
    | ok value rest passed =>
        have later := (moves.manyUpTo (rest.items.length + 1) (moves.keeps fits read).2 passed).1
        have length : (rest.shift d finish).items.length = rest.items.length := List.length_map _
        simp only [Reply.shift, length, Reader.map, later]
        cases Reader.manyUpTo p (rest.items.length + 1) passed rest <;> rfl
  keeps {input finish values rest passed} fits ok := by
    unfold Reader.many1 at ok
    split at ok
    · cases ok
    · next value middle passed' read =>
        obtain ⟨here, fits'⟩ := moves.keeps fits read
        simp only [Reader.map] at ok
        split at ok
        · next others =>
            cases ok
            obtain ⟨placed', fits''⟩ := (moves.manyUpTo _ fits' passed').2 _ _ _ others
            exact ⟨List.forall_mem_cons.mpr ⟨here, placed'⟩, fits''⟩
        · cases ok

/-! ## What stands in front of the input -/

/-- The reader does the same wherever the item in front of the input stops. -/
def Blind (p : Reader ι α) : Prop :=
  ∀ items stop stop' finish, p ⟨items, stop, finish⟩ = p ⟨items, stop', finish⟩

omit [BEq ι] in
theorem blind_item {expected : List (Option ι)} {f : ι → Span → Option α} :
    (item expected f).Blind :=
  fun _ _ _ _ => rfl

omit [BEq ι] in
theorem Blind.map (blind : p.Blind) (f : α → β) : (p.map f).Blind := by
  intro items stop stop' finish
  unfold Reader.map
  rw [blind items stop stop']

omit [BEq ι] in
theorem Blind.mapSpan (blind : p.Blind) (f : α → Span → β) : (p.mapSpan f).Blind := by
  intro items stop stop' finish
  unfold Reader.mapSpan
  rw [blind items stop stop']
  rfl

omit [BEq ι] in
theorem Blind.check (blind : p.Blind) (f : α → Span → Except (Span × Complaint) β) :
    (p.check f).Blind := by
  intro items stop stop' finish
  unfold Reader.check
  rw [blind items stop stop']
  rfl

omit [BEq ι] in
theorem Blind.labelled (blind : p.Blind) (label : String) : (p.labelled label).Blind := by
  intro items stop stop' finish
  unfold Reader.labelled
  rw [blind items stop stop']

/-- The second of two things has the first in front of it. -/
theorem Blind.pair (blind : p.Blind) : (p.pair q).Blind := by
  intro items stop stop' finish
  unfold Reader.pair
  rw [blind items stop stop']

theorem Blind.first (blind : p.Blind) : (p.first q).Blind := blind.pair.map _

theorem blind_between {opening closing : ι} : (between opening closing p).Blind :=
  (blind_item.pair.map _).first

theorem blind_choice {ps : List (Reader ι α)} (first : p.Blind) (others : ∀ p' ∈ ps, p'.Blind) :
    (choice p ps).Blind := by
  intro items stop stop' finish
  have after (e : Failure ι) :
      choiceAfter e ps ⟨items, stop, finish⟩ = choiceAfter e ps ⟨items, stop', finish⟩ := by
    induction ps generalizing e with
    | nil => rfl
    | cons p ps ih =>
        obtain ⟨next, later⟩ := List.forall_mem_cons.mp others
        unfold choiceAfter
        rw [next items stop stop']
        cases p ⟨items, stop', finish⟩ with
        | ok value rest passed => rfl
        | failed e' => exact ih later _
  unfold choice
  rw [first items stop stop']
  simp only [after]

theorem Blind.many1 (blind : p.Blind) : p.many1.Blind := by
  intro items stop stop' finish
  unfold Reader.many1
  rw [blind items stop stop']

end Reader

end TermMachine
