import TermMachine.Proofs.Clause.Derivation
import TermMachine.Proofs.Reader.Shifting

/-! # Terms further on in a source

The names of a term know their places, and moving the term moves them all. Only the cells of a list
have a name that stands nowhere, which stays as it is. The items of a clause are moved in the same
way.

`resolve_move`: items that stand further on are resolved to the term further on, or to the same
complaint there. Operators do not look at places, and a minus sign only looks at whether the number
behind it is adjacent.
-/

namespace TermMachine

/-- The name `d` further on, if it stands anywhere at all. -/
def Name.move (d : Nat) (n : Name) : Name :=
  if n.span.stop = 0 then n else ⟨n.text, n.span.shift d⟩

@[simp] theorem Name.text_move (d : Nat) (n : Name) : (n.move d).text = n.text := by
  unfold Name.move
  split <;> rfl

theorem Name.move_of_placed (d : Nat) {text : String} {span : Span} (placed : 0 < span.stop) :
    Name.move d ⟨text, span⟩ = ⟨text, span.shift d⟩ :=
  if_neg (Nat.ne_of_gt placed)

theorem Name.move_unplaced (d : Nat) (text : String) :
    Name.move d (Name.unplaced text) = Name.unplaced text :=
  if_pos rfl

def SourceTerm.move (d : Nat) (t : SourceTerm) : SourceTerm := TermOf.map (Name.move d) t

def Item.move (d : Nat) : Item → Item
  | .operand term span => .operand (SourceTerm.move d term) (span.shift d)
  | .name n => .name (n.move d)
  | .comma span => .comma (span.shift d)
  | .bar span => .bar (span.shift d)

/-- The item does not stand at the very start of a source. -/
def Item.Placed (item : Item) : Prop := 0 < item.span.stop

namespace SourceTerm

variable {d : Nat}

theorem move_compound (name : Name) (args : List SourceTerm) :
    move d (.compound name args) = .compound (name.move d) (args.map (move d)) := by
  unfold move
  rw [TermOf.map, TermOf.mapAll_eq_map]

end SourceTerm

namespace Item

variable {d : Nat}

theorem span_move {item : Item} (placed : item.Placed) :
    (item.move d).span = item.span.shift d := by
  cases item with
  | name n => exact congrArg Name.span (Name.move_of_placed d placed)
  | operand _ _ | comma _ | bar _ => rfl

theorem operatorName?_move {item : Item} (placed : item.Placed) :
    (item.move d).operatorName? = item.operatorName?.map (Name.move d) := by
  cases item with
  | operand term span => rfl
  | name n => rfl
  | comma span => exact congrArg some (Name.move_of_placed d placed).symm
  | bar span => exact congrArg some (Name.move_of_placed d placed).symm

theorem splitCommas_move (items : List Item) :
    splitCommas (items.map (move d)) = (splitCommas items).map (List.map (move d)) := by
  induction items with
  | nil => rfl
  | cons item items ih =>
      cases item with
      | comma span => simp only [List.map_cons, move, splitCommas, ih, List.map_nil]
      | operand _ _ | name _ | bar _ =>
          simp only [List.map_cons, move, splitCommas, ih]
          cases splitCommas items <;> rfl

theorem isBar_move (item : Item) : (item.move d).isBar = item.isBar := by
  cases item <;> rfl

end Item

namespace Priority

variable {table : OperatorTable} {d stop fuel limit : Nat} {items rest : List Item}

def Progress.move (d : Nat) (r : Progress) : Progress :=
  (SourceTerm.move d r.1, r.2.1, r.2.2.map (Item.move d))

theorem startsTerm_move (table : OperatorTable) (items : List Item) :
    startsTerm table (items.map (Item.move d)) = startsTerm table items := by
  cases items with
  | nil => rfl
  | cons item items => cases item <;> simp [startsTerm, Item.move]

theorem negatedNumber?_move {name : Name} (placed : 0 < name.span.stop) (items : List Item) :
    negatedNumber? (name.move d) (items.map (Item.move d)) =
      (negatedNumber? name items).map fun r => (r.1, r.2.map (Item.move d)) := by
  have moved : (name.move d).span = name.span.shift d :=
    congrArg Name.span (Name.move_of_placed d placed)
  cases items with
  | nil => rfl
  | cons item items =>
      cases item with
      | name _ | comma _ | bar _ => rfl
      | operand t span =>
          cases t with
          | atom _ | var _ => rfl
          | compound name' args => rw [List.map_cons, Item.move, SourceTerm.move_compound]; rfl
          | number value =>
              have adjacent : (span.shift d).start = (name.span.shift d).stop ↔
                  span.start = name.span.stop := Nat.add_right_cancel_iff
              simp only [List.map_cons, Item.move, SourceTerm.move, TermOf.map, negatedNumber?,
                Name.text_move, moved, Bool.and_eq_true, beq_iff_eq, adjacent]
              split <;> rfl

/-- What the readers do within `fuel` calls they do as well with items that stand further on. -/
structure Shifted (table : OperatorTable) (d stop fuel : Nat) : Prop where
  primary : ∀ {limit : Nat} {items : List Item}, (∀ item ∈ items, item.Placed) →
    Priority.primary table (stop + d) fuel limit (items.map (Item.move d)) =
      shiftOutcome d (Progress.move d) (Priority.primary table stop fuel limit items)
  expression : ∀ {limit : Nat} {items : List Item}, (∀ item ∈ items, item.Placed) →
    Priority.expression table (stop + d) fuel limit (items.map (Item.move d)) =
      shiftOutcome d (Progress.move d) (Priority.expression table stop fuel limit items)
  extend : ∀ {limit p : Nat} {left : SourceTerm} {items : List Item},
    (∀ item ∈ items, item.Placed) →
    Priority.extend table (stop + d) fuel limit (SourceTerm.move d left) p
        (items.map (Item.move d)) =
      shiftOutcome d (Progress.move d) (Priority.extend table stop fuel limit left p items)

theorem Takes.placed {t : SourceTerm} {p : Nat} (takes : Takes table limit items t p rest)
    (placed : ∀ item ∈ items, item.Placed) : ∀ item ∈ rest, item.Placed := by
  obtain ⟨used, rfl, _⟩ := takes
  exact fun item mem => placed item (List.mem_append_right used mem)

theorem primary_move (shifted : Shifted table d stop fuel) (placed : ∀ item ∈ items, item.Placed) :
    primary table (stop + d) (fuel + 1) limit (items.map (Item.move d)) =
      shiftOutcome d (Progress.move d) (primary table stop (fuel + 1) limit items) := by
  cases items with
  | nil => simp only [List.map_nil, primary]; rfl
  | cons item items =>
      obtain ⟨here, others⟩ := List.forall_mem_cons.mp placed
      cases item with
      | operand t span => simp only [List.map_cons, Item.move, primary]; rfl
      | comma span | bar span => simp only [List.map_cons, Item.move, primary]; rfl
      | name n =>
          simp only [List.map_cons, Item.move, primary, negatedNumber?_move here, Name.text_move,
            startsTerm_move]
          cases negatedNumber? n items with
          | some r => rfl
          | none =>
              simp only [Option.map_none]
              cases (table.before? n.text).filter fun op =>
                  op.priority ≤ limit && startsTerm table items with
              | none => rfl
              | some op =>
                  simp only [shifted.expression others]
                  cases expression table stop fuel op.right items with
                  | error e => rfl
                  | ok r =>
                      simp only [shiftOutcome, Progress.move, SourceTerm.move_compound]
                      rfl

theorem expression_move (shifted : Shifted table d stop fuel)
    (placed : ∀ item ∈ items, item.Placed) :
    expression table (stop + d) (fuel + 1) limit (items.map (Item.move d)) =
      shiftOutcome d (Progress.move d) (expression table stop (fuel + 1) limit items) := by
  simp only [expression, shifted.primary placed]
  cases read : primary table stop fuel limit items with
  | error e => rfl
  | ok r =>
      obtain ⟨left, priority, rest⟩ := r
      exact shifted.extend (((sound_calls table stop fuel).primary read).placed placed)

theorem extend_move (shifted : Shifted table d stop fuel) (placed : ∀ item ∈ items, item.Placed)
    (left : SourceTerm) (p : Nat) :
    extend table (stop + d) (fuel + 1) limit (SourceTerm.move d left) p
        (items.map (Item.move d)) =
      shiftOutcome d (Progress.move d) (extend table stop (fuel + 1) limit left p items) := by
  cases items with
  | nil => simp only [List.map_nil, extend]; rfl
  | cons item items =>
      obtain ⟨here, others⟩ := List.forall_mem_cons.mp placed
      simp only [List.map_cons, extend, Item.operatorName?_move here]
      cases item.operatorName? with
      | none =>
          simp only [Option.map_none, Item.span_move here]
          rfl
      | some n =>
          simp only [Option.map_some, Name.text_move]
          cases fitting (table.between? n.text) limit p with
          | some op =>
              simp only [shifted.expression others]
              cases read : expression table stop fuel op.right items with
              | error e => rfl
              | ok r =>
                  obtain ⟨right, priority, rest⟩ := r
                  have placed' := ((sound_calls table stop fuel).expression read).placed others
                  have moved : SourceTerm.move d (.compound n [left, right]) =
                      .compound (n.move d) [SourceTerm.move d left, SourceTerm.move d right] :=
                    SourceTerm.move_compound n _
                  simp only [shiftOutcome, Progress.move]
                  rw [← moved]
                  exact shifted.extend placed'
          | none =>
              dsimp only
              cases fitting (table.after? n.text) limit p with
              | some op =>
                  have moved : SourceTerm.move d (.compound n [left]) =
                      .compound (n.move d) [SourceTerm.move d left] :=
                    SourceTerm.move_compound n _
                  rw [← moved]
                  exact shifted.extend others
              | none => rfl

/-- The three readers call each other with one call less to go, so one induction serves them all. -/
theorem shifted_calls (table : OperatorTable) (d stop fuel : Nat) : Shifted table d stop fuel := by
  induction fuel with
  | zero =>
      refine ⟨fun _ => ?_, fun _ => ?_, fun _ => ?_⟩
      · simp only [primary]; rfl
      · simp only [expression]; rfl
      · simp only [extend]; rfl
  | succ fuel shifted =>
      exact ⟨primary_move shifted, expression_move shifted, fun placed =>
        extend_move shifted placed _ _⟩

/-- Items further on are resolved to the term further on, or to the complaint there. -/
theorem resolve_move (table : OperatorTable) (limit : Nat) (placed : ∀ item ∈ items, item.Placed)
    (span : Span) :
    resolve table limit (items.map (Item.move d)) (span.shift d) =
      shiftOutcome d (SourceTerm.move d) (resolve table limit items span) := by
  have calls := shifted_calls table d span.stop (2 * items.length + 2)
  unfold resolve
  rw [List.length_map]
  unfold Span.shift
  rw [calls.expression placed]
  cases read : expression table span.stop (2 * items.length + 2) limit items with
  | error e => rfl
  | ok r =>
      obtain ⟨t, priority, rest⟩ := r
      cases rest with
      | nil => rfl
      | cons item rest =>
          have left := ((sound_calls table _ _).expression read).placed placed
          simp only [shiftOutcome, Progress.move, List.map_cons,
            Item.span_move (left item List.mem_cons_self)]

/-! ## Arguments and lists -/

theorem collect_shift {α β γ : Type} {f : γ → Except Fault β} {f' : α → Except Fault β}
    {g : α → γ} {move : β → β} {as : List α}
    (moved : ∀ a ∈ as, f (g a) = shiftOutcome d move (f' a)) :
    collect f (as.map g) = shiftOutcome d (List.map move) (collect f' as) := by
  induction as with
  | nil => rfl
  | cons a as ih =>
      obtain ⟨here, others⟩ := List.forall_mem_cons.mp moved
      simp only [List.map_cons, collect, here, ih others]
      cases f' a with
      | error e => rfl
      | ok b =>
          cases collect f' as <;> rfl

theorem mem_of_mem_splitCommas {part : List Item} (mem : part ∈ Item.splitCommas items) :
    ∀ item ∈ part, item ∈ items := by
  fun_induction Item.splitCommas items generalizing part with
  | case1 => simp_all
  | case2 span items ih =>
      rcases List.mem_cons.mp mem with rfl | mem
      · exact nofun
      · exact fun item inside => List.mem_cons_of_mem _ (ih mem item inside)
  | case3 first items _ none ih =>
      exact absurd none (Item.splitCommas_ne_nil items)
  | case4 first items _ part' parts split ih =>
      rw [split] at ih
      rcases List.mem_cons.mp mem with rfl | mem
      · exact List.forall_mem_cons.mpr ⟨List.mem_cons_self, fun item inside =>
          List.mem_cons_of_mem first (ih List.mem_cons_self item inside)⟩
      · exact fun item inside =>
          List.mem_cons_of_mem first (ih (List.mem_cons_of_mem part' mem) item inside)

theorem arguments_move (table : OperatorTable) (placed : ∀ item ∈ items, item.Placed)
    (span : Span) :
    arguments table (items.map (Item.move d)) (span.shift d) =
      shiftOutcome d (List.map (SourceTerm.move d)) (arguments table items span) := by
  unfold arguments
  rw [Item.splitCommas_move]
  exact collect_shift fun part mem => resolve_move table argumentPriority
    (fun item inside => placed item (mem_of_mem_splitCommas mem item inside)) span

theorem move_foldr (elements : List SourceTerm) (tail : SourceTerm) :
    SourceTerm.move d (elements.foldr
        (fun head tail => .compound (Name.unplaced listCellName) [head, tail]) tail) =
      (elements.map (SourceTerm.move d)).foldr
        (fun head tail => .compound (Name.unplaced listCellName) [head, tail])
        (SourceTerm.move d tail) := by
  induction elements with
  | nil => rfl
  | cons head elements ih =>
      simp only [List.foldr_cons, List.map_cons, SourceTerm.move_compound, Name.move_unplaced, ih,
        List.map_nil]

theorem list_move (table : OperatorTable) (placed : ∀ item ∈ items, item.Placed) {span : Span}
    (positive : 0 < span.stop) :
    list table (items.map (Item.move d)) (span.shift d) =
      shiftOutcome d (SourceTerm.move d) (list table items span) := by
  have same : (fun item : Item => !item.isBar) ∘ Item.move d = fun item => !item.isBar :=
    funext fun item => congrArg (!·) (Item.isBar_move item)
  have tail : listTail table (items.map (Item.move d)) (span.shift d) =
      shiftOutcome d (SourceTerm.move d) (listTail table items span) := by
    unfold listTail
    rw [List.dropWhile_map, same]
    cases split : items.dropWhile fun item => !item.isBar with
    | nil =>
        have moved : SourceTerm.move d (.atom ⟨emptyListName, .point span.stop⟩) =
            .atom ⟨emptyListName, (Span.point span.stop).shift d⟩ :=
          congrArg TermOf.atom (Name.move_of_placed d positive)
        exact congrArg Except.ok moved.symm
    | cons bar behind =>
        have inside (item : Item) (mem : item ∈ behind) : item.Placed :=
          placed item ((List.dropWhile_suffix _).mem (split ▸ List.mem_cons_of_mem bar mem))
        exact resolve_move table argumentPriority inside span
  have front : ∀ item ∈ items.takeWhile fun item => !item.isBar, item.Placed :=
    fun item mem => placed item ((List.takeWhile_prefix _).mem mem)
  unfold list
  rw [tail, List.takeWhile_map, same, arguments_move table front]
  cases listTail table items span with
  | error e => rfl
  | ok tail =>
      cases arguments table (items.takeWhile fun item => !item.isBar) span with
      | error e => rfl
      | ok elements => exact congrArg Except.ok (move_foldr elements tail).symm

end Priority

end TermMachine
