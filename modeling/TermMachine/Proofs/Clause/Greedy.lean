import TermMachine.Proofs.Clause.Derivation

/-! # Nothing has to be taken back

`Strict table items t p` is the grammar of operators in which a name stands for itself only if it is
no operator at all. It is ambiguous where operators of one priority meet, so what a term goes on
with is a choice, and the readers always make the one that goes on deepest. `resolve_strict` says
that they get to the end of everything that the grammar derives, as long as no name is an operator
both between and behind operands.

The operators that wait for their last operand are a list, `Waiting`, and the state of a reading is
the innermost expression with that list, `Reading`. A derivation asks for some state to be reached
behind its items. The readers reach one that gets to the asked one when finished operators are taken
off, `Unwinds`. If the next operator fits further inside than the derivation says, all the
priorities on the way are equal, and the state that is asked for next can still be got to.

One case is left out: if the minus sign is an operator, but not in front of operands, then behind
the name of an operator that stands in front of operands the readers do not take it for the start of
a negative number. `resolve_minus_unseen` is an example.
-/

namespace TermMachine

namespace Priority

/-- The name is a minus sign and the items start with a number directly behind it. -/
def Negates (name : Name) (items : List Item) : Prop :=
  name.text = "-" ∧ ∃ value span rest,
    items = .operand (.number value) span :: rest ∧ span.start = name.span.stop

/-- The items are a term of a priority in the strict grammar. The name of an operator has to be
applied. A minus sign is not applied to a number that stands directly behind it, but may be to a
longer operand that such a number starts. -/
inductive Strict (table : OperatorTable) : List Item → SourceTerm → Nat → Prop
  | operand {t : SourceTerm} {span : Span} : Strict table [.operand t span] t 0
  | atom {name : Name} (plain : table.isOperator name.text = false) :
      Strict table [.name name] (.atom name) 0
  | negative {minus : Name} {value : Numeral} {span : Span} (text : minus.text = "-")
      (adjacent : span.start = minus.span.stop) :
      Strict table [.name minus, .operand (.number value) span] (.number value.negate) 0
  | before {name : Name} {op : Operator} {items : List Item} {t : SourceTerm} {p : Nat}
      (found : table.before? name.text = some op) (apart : Negates name items → 1 < items.length)
      (right : Strict table items t p) (fits : p ≤ op.right) :
      Strict table (.name name :: items) (.compound name [t]) op.priority
  | between {item : Item} {name : Name} {op : Operator} {lefts rights : List Item}
      {l r : SourceTerm} {p q : Nat} (named : item.operatorName? = some name)
      (found : table.between? name.text = some op) (left : Strict table lefts l p)
      (fitsLeft : p ≤ op.left) (right : Strict table rights r q) (fitsRight : q ≤ op.right) :
      Strict table (lefts ++ item :: rights) (.compound name [l, r]) op.priority
  | after {item : Item} {name : Name} {op : Operator} {items : List Item} {t : SourceTerm} {p : Nat}
      (named : item.operatorName? = some name) (found : table.after? name.text = some op)
      (left : Strict table items t p) (fits : p ≤ op.left) :
      Strict table (items ++ [item]) (.compound name [t]) op.priority

/-- Somewhere the name of an operator that stands in front of operands is followed by a minus sign
and a number directly behind that. -/
def NegatedBehind (table : OperatorTable) (items : List Item) : Prop :=
  ∃ before name minus after, items = before ++ .name name :: .name minus :: after ∧
    (table.before? name.text).isSome ∧ Negates minus after

/-- Where it matters that a minus sign starts an operand, it is seen. -/
def MinusSeen (table : OperatorTable) (items : List Item) : Prop :=
  NegatedBehind table items → (table.before? "-").isSome ∨ table.isOperator "-" = false

variable {table : OperatorTable} {stop : Nat}

/-! ## What stands where an operand starts -/

theorem Negates.append {name : Name} {items : List Item} (negates : Negates name items)
    (rest : List Item) : Negates name (items ++ rest) := by
  obtain ⟨text, value, span, others, rfl, adjacent⟩ := negates
  exact ⟨text, value, span, others ++ rest, rfl, adjacent⟩

theorem negatedNumber?_eq_none {name : Name} {items : List Item} (apart : ¬Negates name items) :
    negatedNumber? name items = none := by
  unfold negatedNumber?
  split
  · next value span rest =>
      refine if_neg fun joined => apart ?_
      simp only [Bool.and_eq_true, beq_iff_eq] at joined
      exact ⟨joined.1, value, span, rest, rfl, joined.2⟩
  · rfl

theorem MinusSeen.of_prefix {lefts : List Item} (rights : List Item)
    (seen : MinusSeen table (lefts ++ rights)) : MinusSeen table lefts := by
  rintro ⟨before, name, minus, after, rfl, found, negates⟩
  refine seen ⟨before, name, minus, after ++ rights, ?_, found, negates.append rights⟩
  simp only [List.append_assoc, List.cons_append]

theorem MinusSeen.of_suffix (lefts : List Item) {rights : List Item}
    (seen : MinusSeen table (lefts ++ rights)) : MinusSeen table rights := by
  rintro ⟨before, name, minus, after, rfl, found, negates⟩
  exact seen ⟨lefts ++ before, name, minus, after, (List.append_assoc ..).symm, found, negates⟩

theorem Strict.startsTerm_or {items : List Item} {t : SourceTerm} {p : Nat}
    (strict : Strict table items t p) (rest : List Item) :
    startsTerm table (items ++ rest) = true ∨
      ∃ minus after, items = .name minus :: after ∧ Negates minus after := by
  induction strict generalizing rest with
  | operand => exact .inl rfl
  | atom plain => exact .inl (by simp [startsTerm, plain])
  | negative text adjacent => exact .inr ⟨_, _, rfl, text, _, _, [], rfl, adjacent⟩
  | before found _ _ _ _ => exact .inl (by simp [startsTerm, found])
  | @between item _ _ _ rights _ _ _ _ _ _ _ _ _ _ ih _ =>
      rcases ih (item :: rights ++ rest) with starts | ⟨minus, after, rfl, negates⟩
      · rw [List.append_assoc]
        exact .inl starts
      · exact .inr ⟨minus, after ++ item :: rights, rfl, negates.append _⟩
  | @after item _ _ _ _ _ _ _ _ _ ih =>
      rcases ih (item :: rest) with starts | ⟨minus, after, rfl, negates⟩
      · rw [List.append_assoc]
        exact .inl starts
      · exact .inr ⟨minus, after ++ [item], rfl, negates.append _⟩

/-- Behind an operator that stands in front of operands, the operand is seen. -/
theorem Strict.startsTerm {items : List Item} {t : SourceTerm} {p : Nat} {name : Name}
    (strict : Strict table items t p) (found : (table.before? name.text).isSome)
    (seen : MinusSeen table (.name name :: items)) (rest : List Item) :
    startsTerm table (items ++ rest) = true := by
  rcases strict.startsTerm_or rest with starts | ⟨minus, after, rfl, negates⟩
  · exact starts
  · have sign := seen ⟨[], name, minus, after, rfl, found, negates⟩
    rw [← negates.1] at sign
    rcases sign with before | none
    · simp [Priority.startsTerm, before]
    · simp [Priority.startsTerm, none]

/-! ## Operators that wait for their last operand -/

/-- An operator that waits for its last operand: what it makes of the operand, with which priority,
and the limit of the expression that this is part of. -/
structure Waiting where
  fuel : Nat
  limit : Nat
  make : SourceTerm → SourceTerm
  priority : Nat

/-- Where a reading stands behind a term: the limit of the innermost expression, the priority of the
term, and the operators that wait, the innermost first. -/
structure Place where
  limit : Nat
  priority : Nat
  waiting : List Waiting

namespace Place

def applied (s : Place) (op : Operator) : Place := { s with priority := op.priority }

def Fits (s : Place) (op : Operator) : Prop := op.priority ≤ s.limit ∧ s.priority ≤ op.left

end Place

/-- One place becomes the other one when the waiting operators take what has been read as their last
operands. None of them binds tighter than its operand may. At the other place the term may be taken
for one of a higher priority. -/
inductive Unwinds : Place → Place → Prop
  | rise {limit p p' : Nat} {ws : List Waiting} (le : p ≤ p') :
      Unwinds ⟨limit, p, ws⟩ ⟨limit, p', ws⟩
  | finish {limit p : Nat} {w : Waiting} {ws : List Waiting} {s : Place} (within : p ≤ limit)
      (limited : limit ≤ w.priority) (rest : Unwinds ⟨w.limit, w.priority, ws⟩ s) :
      Unwinds ⟨limit, p, w :: ws⟩ s

theorem Unwinds.refl (s : Place) : Unwinds s s := .rise (Nat.le_refl s.priority)

theorem Unwinds.trans {s₁ s₂ s₃ : Place} (first : Unwinds s₁ s₂) (second : Unwinds s₂ s₃) :
    Unwinds s₁ s₃ := by
  induction first with
  | rise le =>
      cases second with
      | rise le' => exact .rise (Nat.le_trans le le')
      | finish within limited rest => exact .finish (Nat.le_trans le within) limited rest
  | finish within limited _ ih => exact .finish within limited (ih second)

theorem Unwinds.priority_le {s s' : Place} (unwinds : Unwinds s s') : s.priority ≤ s'.priority := by
  induction unwinds with
  | rise le => exact le
  | finish within limited _ ih => exact Nat.le_trans within (Nat.le_trans limited ih)

/-- If an operator may follow further inside as well as further outside, it may as well be taken
inside. -/
theorem Unwinds.applied {s s' : Place} {op : Operator} (unwinds : Unwinds s s') (inside : s.Fits op)
    (outside : s'.Fits op) : Unwinds (s.applied op) (s'.applied op) := by
  cases unwinds with
  | rise _ => exact .refl _
  | @finish limit p w ws _ within limited rest =>
      have inner : op.priority ≤ limit := inside.1
      have outer : w.priority ≤ s'.priority := rest.priority_le
      -- the priorities go up from `op` to `op`, so all of them are equal
      have le := op.left_le
      have fits := outside.2
      have same : s'.priority = op.priority := by omega
      have same' : w.priority = op.priority := by omega
      have unchanged : s'.applied op = s' := by rw [Place.applied, ← same]
      rw [unchanged]
      exact .finish inner limited rest

/-! ## Readings -/

/-- A term that has been read and may be gone on with, and where. -/
structure Reading where
  fuel : Nat
  left : SourceTerm
  place : Place

variable (table stop)

def proceed (read : Except Fault Progress) (w : Waiting) : Except Fault Progress :=
  match read with
  | .ok (t, _, rest) => extend table stop w.fuel w.limit (w.make t) w.priority rest
  | .error e => .error e

/-- What the expression and then all the waiting operators come to. -/
def proceedAll (ws : List Waiting) (read : Except Fault Progress) : Except Fault Progress :=
  ws.foldl (proceed table stop) read

def Reading.result (r : Reading) (items : List Item) : Except Fault Progress :=
  proceedAll table stop r.place.waiting
    (extend table stop r.fuel r.place.limit r.left r.place.priority items)

variable {table stop}

/-- The calls that are left are enough for `n` items. -/
structure Reading.Lasts (r : Reading) (n : Nat) : Prop where
  own : 2 * n + 1 ≤ r.fuel
  waiting : ∀ w ∈ r.place.waiting, 2 * n + 1 ≤ w.fuel

/-- Reading comes to a place that the given one is got from. -/
def Leads (table : OperatorTable) (stop : Nat) (read : Except Fault Progress) (s : Place)
    (rest : List Item) : Prop :=
  ∃ r : Reading, read = r.result table stop rest ∧ Unwinds r.place s ∧ r.Lasts rest.length

theorem Leads.unwinds {read : Except Fault Progress} {s s' : Place} {rest : List Item}
    (leads : Leads table stop read s rest) (unwinds : Unwinds s s') :
    Leads table stop read s' rest := by
  obtain ⟨r, same, first, lasts⟩ := leads
  exact ⟨r, same, first.trans unwinds, lasts⟩

/-- An item that can only be the operator `op` behind a term. -/
structure Follows (table : OperatorTable) (item : Item) (name : Name) (op : Operator) : Prop where
  named : item.operatorName? = some name
  only : ∀ op', table.between? name.text = some op' ∨ table.after? name.text = some op' → op' = op

theorem fitting_of_not {op? : Option Operator} {op : Operator} {limit p : Nat}
    (only : ∀ op', op? = some op' → op' = op) (misfit : ¬(op.priority ≤ limit ∧ p ≤ op.left)) :
    fitting op? limit p = none := by
  refine Option.filter_eq_none_iff.mpr fun op' found allowed => misfit ?_
  simp only [Bool.and_eq_true, decide_eq_true_eq] at allowed
  exact only op' found ▸ allowed

theorem fitting_of_fits {op : Operator} {limit p : Nat} (allowed : op.priority ≤ limit)
    (left : p ≤ op.left) : fitting (some op) limit p = some op := by
  simp [fitting, allowed, left]

/-- Where the operator does not fit, the expression ends. -/
theorem Follows.extend {item : Item} {name : Name} {op : Operator}
    (follows : Follows table item name op) {fuel limit p : Nat}
    (misfit : ¬(op.priority ≤ limit ∧ p ≤ op.left)) (left : SourceTerm) (rest : List Item) :
    Priority.extend table stop (fuel + 1) limit left p (item :: rest) =
      .ok (left, p, item :: rest) := by
  have between := fitting_of_not (fun op' found => follows.only op' (.inl found)) misfit
  have after := fitting_of_not (fun op' found => follows.only op' (.inr found)) misfit
  simp only [Priority.extend, follows.named, between, after]

/-- An operator that fits at a place is taken there, or further inside. -/
theorem Reading.reach (stop : Nat) {item : Item} {name : Name} {op : Operator}
    (follows : Follows table item name op) {r : Reading} {s : Place} {rest : List Item}
    (unwinds : Unwinds r.place s) (fits : s.Fits op) (lasts : r.Lasts (rest.length + 1)) :
    ∃ r' : Reading, r.result table stop (item :: rest) = r'.result table stop (item :: rest) ∧
      r'.place.Fits op ∧ Unwinds (r'.place.applied op) (s.applied op) ∧
      r'.Lasts (rest.length + 1) := by
  obtain ⟨fuel, left, place⟩ := r
  dsimp only at unwinds
  induction unwinds generalizing fuel left with
  | rise le => exact ⟨_, rfl, ⟨fits.1, Nat.le_trans le fits.2⟩, .refl _, lasts⟩
  | @finish limit p w ws s within limited others ih =>
      by_cases here : Place.Fits ⟨limit, p, w :: ws⟩ op
      · exact ⟨_, rfl, here, Unwinds.applied (.finish within limited others) here fits, lasts⟩
      · obtain ⟨r', same, rest'⟩ := ih fits w.fuel (w.make left)
          ⟨lasts.waiting w List.mem_cons_self,
            fun w' mem => lasts.waiting w' (List.mem_cons_of_mem _ mem)⟩
        refine ⟨r', ?_, rest'⟩
        rw [← same]
        have own := lasts.own
        obtain ⟨fuel, rfl⟩ : ∃ n, fuel = n + 1 := ⟨fuel - 1, by dsimp only at own; omega⟩
        show proceedAll table stop (w :: ws) (Priority.extend ..) = _
        rw [follows.extend here]
        rfl

/-! ## What the readers do with a derivation -/

/-- A minus sign directly in front of a number is taken with it. -/
theorem primary_negative {fuel limit : Nat} {minus : Name} {value : Numeral} {span : Span}
    {rest : List Item} (text : minus.text = "-") (adjacent : span.start = minus.span.stop) :
    primary table stop (fuel + 1) limit (.name minus :: .operand (.number value) span :: rest) =
      .ok (.number value.negate, 0, rest) := by
  simp [primary, negatedNumber?, text, adjacent]

/-- An operand that stands alone. -/
theorem leads_of_primary {fuel limit : Nat} {ws : List Waiting} {items rest : List Item}
    {t : SourceTerm} (read : primary table stop fuel limit items = .ok (t, 0, rest))
    (shorter : rest.length ≤ items.length) (own : 2 * items.length + 1 ≤ fuel)
    (waiting : ∀ w ∈ ws, 2 * items.length + 1 ≤ w.fuel) :
    Leads table stop (proceedAll table stop ws (expression table stop (fuel + 1) limit items))
      ⟨limit, 0, ws⟩ rest := by
  refine ⟨⟨fuel, t, ⟨limit, 0, ws⟩⟩, ?_, .refl _, ⟨?_, fun w mem => ?_⟩⟩
  · simp only [expression, read]
    rfl
  · show 2 * rest.length + 1 ≤ fuel
    omega
  · have enough := waiting w mem
    omega

/-- An operator in front of its operand waits for it. -/
theorem expression_before {fuel limit : Nat} {name : Name} {op : Operator} {items : List Item}
    (found : table.before? name.text = some op) (apart : negatedNumber? name items = none)
    (allowed : op.priority ≤ limit) (starts : startsTerm table items = true) :
    expression table stop (fuel + 2) limit (.name name :: items) =
      proceed table stop (expression table stop fuel op.right items)
        ⟨fuel + 1, limit, fun t => .compound name [t], op.priority⟩ := by
  simp only [expression, primary, apart, found, Option.filter_some, allowed, starts, decide_true,
    Bool.and_true, if_true, proceed]
  cases expression table stop fuel op.right items <;> rfl

/-- An operator between operands waits for the second one. -/
theorem extend_between {fuel limit p : Nat} {item : Item} {name : Name} {op : Operator}
    {rest : List Item} (named : item.operatorName? = some name)
    (found : table.between? name.text = some op) (allowed : op.priority ≤ limit)
    (fits : p ≤ op.left) (left : SourceTerm) :
    extend table stop (fuel + 1) limit left p (item :: rest) =
      proceed table stop (expression table stop fuel op.right rest)
        ⟨fuel, limit, fun t => .compound name [left, t], op.priority⟩ := by
  simp only [extend, named, found, fitting_of_fits allowed fits]
  rfl

/-- An operator behind its operand is applied at once. -/
theorem extend_after {fuel limit p : Nat} {item : Item} {name : Name} {op : Operator}
    {rest : List Item} (named : item.operatorName? = some name)
    (other : table.between? name.text = none) (found : table.after? name.text = some op)
    (allowed : op.priority ≤ limit) (fits : p ≤ op.left) (left : SourceTerm) :
    extend table stop (fuel + 1) limit left p (item :: rest) =
      extend table stop fuel limit (.compound name [left]) op.priority rest := by
  have misfit : fitting none limit p = none := rfl
  simp only [extend, named, other, found, misfit, fitting_of_fits allowed fits]

/-- The readers come to a place where the operator that is asked for can be taken. -/
theorem Leads.reach {read : Except Fault Progress} {limit p : Nat} {ws : List Waiting} {item : Item}
    {name : Name} {op : Operator} {rest : List Item}
    (leads : Leads table stop read ⟨limit, p, ws⟩ (item :: rest))
    (follows : Follows table item name op) (allowed : op.priority ≤ limit) (fits : p ≤ op.left) :
    ∃ fuel left limit' p' ws',
      read = proceedAll table stop ws'
        (extend table stop (fuel + 1) limit' left p' (item :: rest)) ∧
      (op.priority ≤ limit' ∧ p' ≤ op.left) ∧
      Unwinds ⟨limit', op.priority, ws'⟩ ⟨limit, op.priority, ws⟩ ∧
      2 * rest.length + 2 ≤ fuel ∧ ∀ w ∈ ws', 2 * rest.length + 1 ≤ w.fuel := by
  obtain ⟨r, rfl, unwinds, lasts⟩ := leads
  obtain ⟨⟨fuel, left, ⟨limit', p', ws'⟩⟩, same, fits', applied, ⟨own, waiting⟩⟩ :=
    Reading.reach stop follows unwinds ⟨allowed, fits⟩ lasts
  dsimp only at own waiting
  obtain ⟨fuel, rfl⟩ : ∃ n, fuel = n + 1 := ⟨fuel - 1, by omega⟩
  refine ⟨fuel, left, limit', p', ws', same, fits', applied, by omega, fun w mem => ?_⟩
  have enough := waiting w mem
  omega

/-- An operator that fits behind an operand, and one that is wanted at this place, is read with its
operand on the left; the one on the right is yet to be read. -/
theorem Leads.between {read : Except Fault Progress} {limit p : Nat} {ws : List Waiting}
    {item : Item} {name : Name} {op : Operator} {rest : List Item}
    (leads : Leads table stop read ⟨limit, p, ws⟩ (item :: rest))
    (named : item.operatorName? = some name) (found : table.between? name.text = some op)
    (other : table.after? name.text = none) (allowed : op.priority ≤ limit) (fits : p ≤ op.left) :
    ∃ fuel ws', read = proceedAll table stop ws' (expression table stop fuel op.right rest) ∧
      2 * rest.length + 2 ≤ fuel ∧ (∀ w ∈ ws', 2 * rest.length + 1 ≤ w.fuel) ∧
      ∀ q ≤ op.right, Unwinds ⟨op.right, q, ws'⟩ ⟨limit, op.priority, ws⟩ := by
  have follows : Follows table item name op :=
    ⟨named, fun op' either => by simpa [found, other, eq_comm] using either⟩
  obtain ⟨fuel, left, limit', p', ws', rfl, ⟨allowed', fits'⟩, applied, own, waiting⟩ :=
    leads.reach follows allowed fits
  let w : Waiting := ⟨fuel, limit', fun t => .compound name [left, t], op.priority⟩
  have waiting' : ∀ w' ∈ w :: ws', 2 * rest.length + 1 ≤ w'.fuel :=
    List.forall_mem_cons.mpr ⟨Nat.le_of_succ_le own, waiting⟩
  refine ⟨fuel, w :: ws', ?_, own, waiting', fun q within => .finish within op.right_le applied⟩
  rw [extend_between named found allowed' fits']
  rfl

/-- An operator behind its operand leaves nothing to be read. -/
theorem Leads.after {read : Except Fault Progress} {limit p : Nat} {ws : List Waiting}
    {item : Item} {name : Name} {op : Operator} {rest : List Item}
    (leads : Leads table stop read ⟨limit, p, ws⟩ (item :: rest))
    (named : item.operatorName? = some name) (other : table.between? name.text = none)
    (found : table.after? name.text = some op) (allowed : op.priority ≤ limit)
    (fits : p ≤ op.left) : Leads table stop read ⟨limit, op.priority, ws⟩ rest := by
  have follows : Follows table item name op :=
    ⟨named, fun op' either => by simpa [found, other, eq_comm] using either⟩
  obtain ⟨fuel, left, limit', p', ws', rfl, ⟨allowed', fits'⟩, applied, own, waiting⟩ :=
    leads.reach follows allowed fits
  refine ⟨⟨fuel, .compound name [left], ⟨limit', op.priority, ws'⟩⟩, ?_, applied,
    ⟨Nat.le_of_succ_le own, waiting⟩⟩
  rw [extend_after named other found allowed' fits']
  rfl

theorem not_negates_of_named {item : Item} {name : Name} (named : item.operatorName? = some name)
    (rest : List Item) (minus : Name) : ¬Negates minus (item :: rest) := by
  rintro ⟨_, _, _, _, eq, _⟩
  obtain ⟨rfl, _⟩ := List.cons.inj eq
  cases named

theorem Negates.of_append {minus : Name} {items rest : List Item} (nonempty : items ≠ [])
    (negates : Negates minus (items ++ rest)) : Negates minus items := by
  obtain ⟨item, items, rfl⟩ := List.exists_cons_of_ne_nil nonempty
  obtain ⟨text, value, span, others, eq, adjacent⟩ := negates
  obtain ⟨rfl, _⟩ := List.cons.inj eq
  exact ⟨text, value, span, items, rfl, adjacent⟩

theorem Strict.ne_nil {items : List Item} {t : SourceTerm} {p : Nat}
    (strict : Strict table items t p) : items ≠ [] := by
  cases strict <;> simp

/-- Nothing, or a minus sign in front of items that start with a number directly behind it. -/
def Signed (signs items : List Item) : Prop :=
  signs = [] ∨ ∃ minus, signs = [.name minus] ∧ Negates minus items

theorem Signed.of_append {signs items rest : List Item} (signed : Signed signs (items ++ rest))
    (nonempty : items ≠ []) : Signed signs items := by
  rcases signed with none | ⟨minus, one, negates⟩
  · exact .inl none
  · exact .inr ⟨minus, one, negates.of_append nonempty⟩

theorem Signed.eq_nil {signs items : List Item} {name : Name}
    (signed : Signed signs (.name name :: items)) : signs = [] := by
  rcases signed with none | ⟨minus, _, negates⟩
  · exact none
  · exact absurd negates (not_negates_of_named rfl items minus)

/-- Behind the items of a derivation the readers stand at the place that the derivation says, or
they get there by taking finished operators off. It is the same if a minus sign makes the first
number of the items negative. -/
theorem Strict.leads (exclusive : ∀ name, table.between? name = none ∨ table.after? name = none)
    {items : List Item} {t : SourceTerm} {p : Nat} (strict : Strict table items t p)
    (seen : MinusSeen table items) {signs : List Item} (signed : Signed signs items)
    {limit fuel : Nat} {ws : List Waiting} {rest : List Item} (within : p ≤ limit)
    (behind : ∀ name, ¬Negates name rest) (own : 2 * (signs ++ (items ++ rest)).length + 2 ≤ fuel)
    (waiting : ∀ w ∈ ws, 2 * (signs ++ (items ++ rest)).length + 1 ≤ w.fuel) :
    Leads table stop
      (proceedAll table stop ws (expression table stop fuel limit (signs ++ (items ++ rest))))
      ⟨limit, p, ws⟩ rest := by
  induction strict generalizing signs limit fuel ws rest with
  | @operand t span =>
      obtain ⟨fuel, rfl⟩ : ∃ n, fuel = n + 2 := ⟨fuel - 2, by omega⟩
      rcases signed with rfl | ⟨minus, rfl, text, value, span', others, eq, adjacent⟩
      · have read : primary table stop (fuel + 1) limit (.operand t span :: rest) =
            .ok (t, 0, rest) := by
          simp only [primary]
        exact leads_of_primary read (Nat.le_succ _) (by omega) waiting
      · cases eq
        exact leads_of_primary (primary_negative text adjacent) (Nat.le_add_right _ 2) (by omega)
          waiting
  | @atom name plain =>
      obtain rfl := signed.eq_nil
      obtain ⟨fuel, rfl⟩ : ∃ n, fuel = n + 2 := ⟨fuel - 2, by omega⟩
      have none : table.before? name.text = none := by
        simp only [OperatorTable.isOperator, Bool.or_eq_false_iff, Option.isSome_eq_false_iff,
          Option.isNone_iff_eq_none] at plain
        exact plain.1.1
      have read : primary table stop (fuel + 1) limit (.name name :: rest) =
          .ok (.atom name, 0, rest) := by
        simp only [primary, negatedNumber?_eq_none (behind name), none, Option.filter_none]
      exact leads_of_primary read (Nat.le_succ _) (by omega) waiting
  | @negative minus value span text adjacent =>
      obtain rfl := signed.eq_nil
      obtain ⟨fuel, rfl⟩ : ∃ n, fuel = n + 2 := ⟨fuel - 2, by omega⟩
      exact leads_of_primary (primary_negative text adjacent) (Nat.le_add_right _ 2) (by omega)
        waiting
  | @before name op items t p found _ right fits ih =>
      obtain rfl := signed.eq_nil
      have seen' := seen.of_suffix [_]
      have fits' := Nat.le_trans fits op.right_le
      by_cases negates : Negates name items
      · -- the readers make the number negative, and get a term of the priority of the operand
        have negative := ih seen' (.inr ⟨name, rfl, negates⟩) (Nat.le_trans fits' within) behind own
          waiting
        exact negative.unwinds (.rise fits')
      rw [List.nil_append, List.cons_append, List.length_cons] at own waiting
      obtain ⟨fuel, rfl⟩ : ∃ n, fuel = n + 2 := ⟨fuel - 2, by omega⟩
      have starts := right.startsTerm (by rw [found]; rfl) seen rest
      have apart : ¬Negates name (items ++ rest) := fun more =>
        negates (more.of_append right.ne_nil)
      rw [List.nil_append, List.cons_append,
        expression_before found (negatedNumber?_eq_none apart) within starts]
      let w : Waiting := ⟨fuel + 1, limit, fun t => .compound name [t], op.priority⟩
      have waiting' : ∀ w' ∈ w :: ws, 2 * (items ++ rest).length + 1 ≤ w'.fuel := by
        refine List.forall_mem_cons.mpr ⟨by dsimp only [w]; omega, fun w' mem => ?_⟩
        have enough := waiting w' mem
        omega
      have inner := ih seen' (.inl rfl) fits behind (Nat.le_of_add_le_add_right own) waiting'
      exact inner.unwinds (.finish fits op.right_le (.refl _))
  | @between item name op lefts rights l r p q named found left fitsLeft right fitsRight ihl ihr =>
      have other := (exclusive name.text).resolve_left (by simp [found])
      rw [List.append_assoc, List.cons_append] at own waiting ⊢
      have first := ihl (seen.of_prefix _) (signed.of_append left.ne_nil)
        (Nat.le_trans fitsLeft (Nat.le_trans op.left_le within)) (not_negates_of_named named _)
        own waiting
      obtain ⟨fuel', ws', same, own', waiting', unwinds⟩ :=
        first.between named found other within fitsLeft
      rw [same]
      have second := ihr ((seen.of_suffix lefts).of_suffix [item]) (.inl rfl) fitsRight behind own'
        waiting'
      exact second.unwinds (unwinds q fitsRight)
  | @after item name op items t p named found left fits ih =>
      have other := (exclusive name.text).resolve_right (by simp [found])
      rw [List.append_assoc, List.singleton_append] at own waiting ⊢
      have first := ih (seen.of_prefix _) (signed.of_append left.ne_nil)
        (Nat.le_trans fits (Nat.le_trans op.left_le within)) (not_negates_of_named named _)
        own waiting
      exact first.after named other found within fits

/-- At the end of the items all operators get their last operands. -/
theorem proceedAll_end {ws : List Waiting} (waiting : ∀ w ∈ ws, 1 ≤ w.fuel) (t : SourceTerm)
    (p : Nat) : ∃ t' p', proceedAll table stop ws (.ok (t, p, [])) = .ok (t', p', []) := by
  induction ws generalizing t p with
  | nil => exact ⟨t, p, rfl⟩
  | cons w ws ih =>
      obtain ⟨own, others⟩ := List.forall_mem_cons.mp waiting
      obtain ⟨fuel, enough⟩ : ∃ n, w.fuel = n + 1 := ⟨w.fuel - 1, by omega⟩
      obtain ⟨t', p', same⟩ := ih others (w.make t) w.priority
      refine ⟨t', p', ?_⟩
      rw [← same, proceedAll, List.foldl_cons]
      simp only [proceed, enough, extend]
      rfl

/-- Whatever the strict grammar derives is resolved. -/
theorem resolve_strict (table : OperatorTable)
    (exclusive : ∀ name, table.between? name = none ∨ table.after? name = none) (limit : Nat)
    (items : List Item) (seen : MinusSeen table items) (t : SourceTerm) (p : Nat)
    (strict : Strict table items t p) (within : p ≤ limit) (span : Span) :
    ∃ t', resolve table limit items span = .ok t' := by
  have leads : Leads table span.stop
      (proceedAll table span.stop []
        (expression table span.stop (2 * items.length + 2) limit (items ++ [])))
      ⟨limit, p, []⟩ [] :=
    strict.leads exclusive seen (.inl rfl) within (fun _ ⟨_, _, _, _, eq, _⟩ => nomatch eq)
      (by simp) (fun _ => nofun)
  obtain ⟨⟨fuel, left, ⟨limit', p', ws⟩⟩, same, _, ⟨own, waiting⟩⟩ := leads
  obtain ⟨fuel, rfl⟩ : ∃ n, fuel = n + 1 := ⟨fuel - 1, by dsimp only at own; omega⟩
  obtain ⟨t', p'', ended⟩ : ∃ t' p'', proceedAll table span.stop ws (.ok (left, p', [])) =
      .ok (t', p'', []) := proceedAll_end waiting left p'
  have last : extend table span.stop (fuel + 1) limit' left p' [] = .ok (left, p', []) := by
    simp only [extend]
  have read : expression table span.stop (2 * items.length + 2) limit items =
      .ok (t', p'', []) := by
    rw [List.append_nil] at same
    rw [← ended, ← last]
    exact same
  exact ⟨t', by simp only [resolve, read]⟩

/-- Without operators behind operands there is nothing to confuse operators between operands
with. -/
theorem exclusive_of_not_after (absent : ∀ op ∈ table.operators, op.placement ≠ .after)
    (name : String) : table.between? name = none ∨ table.after? name = none := by
  refine .inr (List.find?_eq_none.mpr fun op mem found => absent op mem ?_)
  simp only [Bool.and_eq_true, beq_iff_eq] at found
  exact found.2

/-- The items of `- a + b` where `+` and the sign have one priority. The readers apply the sign
last, but it can be derived that it is applied first. -/
theorem resolve_strict_ambiguous :
    let table := (OperatorTable.empty.add 500 .yfx "+").add 500 .fy "-"
    let items : List Item :=
      [.name ⟨"-", ⟨0, 1⟩⟩, .name ⟨"a", ⟨2, 3⟩⟩, .name ⟨"+", ⟨4, 5⟩⟩, .name ⟨"b", ⟨6, 7⟩⟩]
    let t : SourceTerm := .compound ⟨"+", ⟨4, 5⟩⟩
      [.compound ⟨"-", ⟨0, 1⟩⟩ [.atom ⟨"a", ⟨2, 3⟩⟩], .atom ⟨"b", ⟨6, 7⟩⟩]
    (∀ name, table.between? name = none ∨ table.after? name = none) ∧ MinusSeen table items ∧
      Strict table items t 500 ∧ 500 ≤ argumentPriority ∧
      ∃ t', resolve table argumentPriority items ⟨0, 7⟩ = .ok t' := by
  intro table items t
  have exclusive : ∀ name, table.between? name = none ∨ table.after? name = none :=
    exclusive_of_not_after (by decide)
  have seen : MinusSeen table items := fun _ => .inl (by decide)
  have within : 500 ≤ argumentPriority := by decide
  let sign : Operator := ⟨"-", .fy, 500, by decide, by decide⟩
  let plus : Operator := ⟨"+", .yfx, 500, by decide, by decide⟩
  have apart : Negates ⟨"-", ⟨0, 1⟩⟩ [.name ⟨"a", ⟨2, 3⟩⟩] → 1 < 1 :=
    fun negates => absurd negates (not_negates_of_named rfl _ _)
  have signed := @Strict.before table ⟨"-", ⟨0, 1⟩⟩ sign _ _ _ rfl apart (.atom rfl) (by decide)
  have strict : Strict table items t 500 :=
    @Strict.between table (.name ⟨"+", ⟨4, 5⟩⟩) ⟨"+", ⟨4, 5⟩⟩ plus _ _ _ _ _ _ rfl rfl signed
      (by decide) (.atom rfl) (by decide)
  exact ⟨exclusive, seen, strict, within,
    resolve_strict table exclusive argumentPriority items seen t 500 strict within ⟨0, 7⟩⟩

/-- The items of `f -1 - 1`, where `f` stands in front of operands and the sign between them only.
The minus of `-1` is taken for an operator behind `f`, and then nothing fits the second one. -/
theorem resolve_minus_unseen :
    let table := (OperatorTable.empty.add 200 .fy "f").add 700 .xfx "-"
    let items : List Item := [.name ⟨"f", ⟨0, 1⟩⟩, .name ⟨"-", ⟨2, 3⟩⟩,
      .operand (.number ⟨1, 0⟩) ⟨3, 4⟩, .name ⟨"-", ⟨5, 6⟩⟩, .operand (.number ⟨1, 0⟩) ⟨7, 8⟩]
    let t : SourceTerm := .compound ⟨"-", ⟨5, 6⟩⟩
      [.compound ⟨"f", ⟨0, 1⟩⟩ [.number ⟨-1, 0⟩], .number ⟨1, 0⟩]
    (∀ name, table.between? name = none ∨ table.after? name = none) ∧
      Strict table items t 700 ∧ 700 ≤ maxPriority ∧
      resolve table maxPriority items ⟨0, 8⟩ = .error (⟨5, 6⟩, .priorityClash) := by
  intro table items t
  have exclusive : ∀ name, table.between? name = none ∨ table.after? name = none :=
    exclusive_of_not_after (by decide)
  let f : Operator := ⟨"f", .fy, 200, by decide, by decide⟩
  let minus : Operator := ⟨"-", .xfx, 700, by decide, by decide⟩
  have negative := @Strict.negative table ⟨"-", ⟨2, 3⟩⟩ ⟨1, 0⟩ ⟨3, 4⟩ rfl rfl
  have applied := @Strict.before table ⟨"f", ⟨0, 1⟩⟩ f _ _ _ rfl
    (fun negates => absurd negates.1 (by decide)) negative (by decide)
  have strict : Strict table items t 700 :=
    @Strict.between table (.name ⟨"-", ⟨5, 6⟩⟩) ⟨"-", ⟨5, 6⟩⟩ minus _ _ _ _ _ _ rfl rfl applied
      (by decide) .operand (by decide)
  exact ⟨exclusive, strict, by decide, by cbv⟩

end Priority

end TermMachine
