import TermMachine.Clause.Priority

/-! # What operators make of items

`Derives table items t p`: the items, all of them in their order, are the term `t` of priority `p`.
The rules are those of the operators alone. Each place of an operator has its limit, and nothing is
said about the order in which operators are tried.

`resolve_derives`: every term that is made of items can be derived from them.
-/

namespace TermMachine

namespace Priority

/-- The items are a term of a priority. What no operator has made has priority 0. -/
inductive Derives (table : OperatorTable) : List Item → SourceTerm → Nat → Prop
  | operand {t : SourceTerm} {span : Span} : Derives table [.operand t span] t 0
  | atom {name : Name} : Derives table [.name name] (.atom name) 0
  /-- A minus sign directly in front of a number makes it negative. -/
  | negative {minus : Name} {value : Numeral} {span : Span} (text : minus.text = "-")
      (adjacent : span.start = minus.span.stop) :
      Derives table [.name minus, .operand (.number value) span] (.number value.negate) 0
  | before {name : Name} {op : Operator} {items : List Item} {t : SourceTerm} {p : Nat}
      (found : table.before? name.text = some op) (right : Derives table items t p)
      (fits : p ≤ op.right) :
      Derives table (.name name :: items) (.compound name [t]) op.priority
  | between {item : Item} {name : Name} {op : Operator} {lefts rights : List Item}
      {l r : SourceTerm} {p q : Nat} (named : item.operatorName? = some name)
      (found : table.between? name.text = some op) (left : Derives table lefts l p)
      (fitsLeft : p ≤ op.left) (right : Derives table rights r q) (fitsRight : q ≤ op.right) :
      Derives table (lefts ++ item :: rights) (.compound name [l, r]) op.priority
  | after {item : Item} {name : Name} {op : Operator} {items : List Item} {t : SourceTerm} {p : Nat}
      (named : item.operatorName? = some name) (found : table.after? name.text = some op)
      (left : Derives table items t p) (fits : p ≤ op.left) :
      Derives table (items ++ [item]) (.compound name [t]) op.priority

variable {table : OperatorTable} {stop fuel limit p q : Nat} {t left : SourceTerm}
  {items rest before : List Item}

/-- The first items are a term within a limit, and the others are left over. -/
def Takes (table : OperatorTable) (limit : Nat) (items : List Item) (t : SourceTerm) (p : Nat)
    (rest : List Item) : Prop :=
  ∃ used, items = used ++ rest ∧ Derives table used t p ∧ p ≤ limit

/-- All that is read within `fuel` calls has been taken off the items. -/
structure Sound (table : OperatorTable) (stop fuel : Nat) : Prop where
  primary : ∀ {limit p : Nat} {items rest : List Item} {t : SourceTerm},
    Priority.primary table stop fuel limit items = .ok (t, p, rest) →
      Takes table limit items t p rest
  expression : ∀ {limit p : Nat} {items rest : List Item} {t : SourceTerm},
    Priority.expression table stop fuel limit items = .ok (t, p, rest) →
      Takes table limit items t p rest
  /-- The term that is gone on with is part of what is taken. -/
  extend : ∀ {limit p q : Nat} {before items rest : List Item} {t left : SourceTerm},
    Derives table before left q → q ≤ limit →
      Priority.extend table stop fuel limit left q items = .ok (t, p, rest) →
        Takes table limit (before ++ items) t p rest

/-! ## What expressions start with -/

theorem negatedNumber?_eq_some (table : OperatorTable) {name : Name} {value : Numeral}
    (negated : negatedNumber? name items = some (value, rest)) :
    Derives table (.name name :: items.take 1) (.number value) 0 ∧ items.drop 1 = rest := by
  unfold negatedNumber? at negated
  split at negated
  · next number span others =>
      split at negated
      · next joined =>
          cases negated
          simp only [Bool.and_eq_true, beq_iff_eq] at joined
          exact ⟨.negative joined.1 joined.2, rfl⟩
      · cases negated
  · cases negated

theorem primary_takes (sound : Sound table stop fuel)
    (ok : primary table stop (fuel + 1) limit items = .ok (t, p, rest)) :
    Takes table limit items t p rest := by
  cases items with
  | nil => simp [primary] at ok
  | cons item items =>
      cases item with
      | operand term span =>
          simp only [primary, Except.ok.injEq, Prod.mk.injEq] at ok
          obtain ⟨rfl, rfl, rfl⟩ := ok
          exact ⟨[_], rfl, .operand, Nat.zero_le _⟩
      | comma span => simp [primary] at ok
      | bar span => simp [primary] at ok
      | name name =>
          simp only [primary] at ok
          split at ok
          · next value others negated =>
              obtain ⟨derived, behind⟩ := negatedNumber?_eq_some table negated
              cases ok
              refine ⟨.name name :: items.take 1, ?_, derived, Nat.zero_le _⟩
              rw [← behind, List.cons_append, List.take_append_drop]
          · split at ok
            · next op chosen =>
                obtain ⟨found, allowed⟩ := Option.filter_eq_some_iff.mp chosen
                simp only [Bool.and_eq_true, decide_eq_true_eq] at allowed
                split at ok
                · next inner priority others read =>
                    obtain ⟨used, rfl, derived, fits⟩ := sound.expression read
                    cases ok
                    exact ⟨.name name :: used, rfl, .before found derived fits, allowed.1⟩
                · cases ok
            · cases ok
              exact ⟨[_], rfl, .atom, Nat.zero_le _⟩

/-! ## What expressions go on with -/

theorem fitting_eq_some {op? : Option Operator} {op : Operator}
    (fits : fitting op? limit p = some op) :
    op? = some op ∧ op.priority ≤ limit ∧ p ≤ op.left := by
  obtain ⟨found, allowed⟩ := Option.filter_eq_some_iff.mp fits
  simp only [Bool.and_eq_true, decide_eq_true_eq] at allowed
  exact ⟨found, allowed⟩

theorem extend_takes (sound : Sound table stop fuel) (derived : Derives table before left q)
    (within : q ≤ limit)
    (ok : extend table stop (fuel + 1) limit left q items = .ok (t, p, rest)) :
    Takes table limit (before ++ items) t p rest := by
  cases items with
  | nil =>
      simp only [extend, Except.ok.injEq, Prod.mk.injEq] at ok
      obtain ⟨rfl, rfl, rfl⟩ := ok
      exact ⟨before, rfl, derived, within⟩
  | cons item items =>
      simp only [extend] at ok
      split at ok
      · cases ok
      · next name named =>
          split at ok
          · next op chosen =>
              obtain ⟨found, allowed, fitsLeft⟩ := fitting_eq_some chosen
              split at ok
              · next right priority others read =>
                  obtain ⟨used, rfl, derived', fitsRight⟩ := sound.expression read
                  have grown := Derives.between named found derived fitsLeft derived' fitsRight
                  have taken := sound.extend grown allowed ok
                  rwa [List.append_assoc, List.cons_append] at taken
              · cases ok
          · split at ok
            · next op chosen =>
                obtain ⟨found, allowed, fits⟩ := fitting_eq_some chosen
                have taken := sound.extend (.after named found derived fits) allowed ok
                rwa [List.append_assoc, List.singleton_append] at taken
            · -- no operator fits, so the item is left over
              cases ok
              exact ⟨before, rfl, derived, within⟩

/-! ## Whole expressions -/

theorem expression_takes (sound : Sound table stop fuel)
    (ok : expression table stop (fuel + 1) limit items = .ok (t, p, rest)) :
    Takes table limit items t p rest := by
  simp only [expression] at ok
  split at ok
  · next left priority middle read =>
      obtain ⟨used, rfl, derived, within⟩ := sound.primary read
      exact sound.extend derived within ok
  · cases ok

/-- The three readers call each other with one call less to go, so one induction serves them all. -/
theorem sound_calls (table : OperatorTable) (stop fuel : Nat) : Sound table stop fuel := by
  induction fuel with
  | zero =>
      refine ⟨fun ok => ?_, fun ok => ?_, fun _ _ ok => ?_⟩
      · simp [primary] at ok
      · simp [expression] at ok
      · simp [extend] at ok
  | succ fuel sound =>
      exact ⟨primary_takes sound, expression_takes sound, extend_takes sound⟩

/-- Every term that the items are resolved to can be derived from all of them, with a priority
within the limit. -/
theorem resolve_derives (table : OperatorTable) (limit : Nat) (items : List Item) (span : Span)
    (t : SourceTerm) (resolved : resolve table limit items span = .ok t) :
    ∃ p ≤ limit, Derives table items t p := by
  unfold resolve at resolved
  split at resolved
  · next t' p read =>
      cases resolved
      obtain ⟨used, rfl, derived, within⟩ := (sound_calls _ _ _).expression read
      rw [List.append_nil]
      exact ⟨p, within, derived⟩
  · cases resolved
  · cases resolved

/-- The items of `-1 - a | -`, with a negative number, operators between operands, one of them a
bar, and an operator that stands for itself because no operand follows. -/
theorem resolve_derives_negative :
    let table := ((OperatorTable.empty.add 500 .yfx "-").add 200 .fy "-").add 1100 .xfy "|"
    let items : List Item := [.name ⟨"-", ⟨0, 1⟩⟩, .operand (.number ⟨1, 0⟩) ⟨1, 2⟩,
      .name ⟨"-", ⟨3, 4⟩⟩, .name ⟨"a", ⟨5, 6⟩⟩, .bar ⟨7, 8⟩, .name ⟨"-", ⟨9, 10⟩⟩]
    let t : SourceTerm := .compound ⟨"|", ⟨7, 8⟩⟩
      [.compound ⟨"-", ⟨3, 4⟩⟩ [.number ⟨-1, 0⟩, .atom ⟨"a", ⟨5, 6⟩⟩], .atom ⟨"-", ⟨9, 10⟩⟩]
    resolve table maxPriority items ⟨0, 10⟩ = .ok t ∧
      ∃ p ≤ maxPriority, Derives table items t p := by
  intro table items t
  have resolved : resolve table maxPriority items ⟨0, 10⟩ = .ok t := by cbv
  exact ⟨resolved, resolve_derives table maxPriority items ⟨0, 10⟩ t resolved⟩

end Priority

end TermMachine
