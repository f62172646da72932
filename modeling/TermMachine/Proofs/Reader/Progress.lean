import TermMachine.Proofs.Reader

/-! # Readers that make progress

A reader `Takes` items if all it does is take some off the front, and it `Consumes` them if one at
least is among them. What is repeated has to consume items. Then a repetition ends because there is
no further piece, and never because it has been repeated too often.
-/

namespace TermMachine

namespace Reader

variable {ι α β : Type} {p : Reader ι α} {q : Reader ι β} {ps : List (Reader ι α)} {value : α}

/-- The reader takes items off the front of its input, if it succeeds. -/
def Takes (p : Reader ι α) : Prop := p.Ensures fun _ _ => True

/-- The reader takes one item off the front of its input at least, if it succeeds. -/
def Consumes (p : Reader ι α) : Prop := p.Ensures fun read _ => read ≠ []

theorem Ensures.takes {P : List (ι × Span) → α → Prop} (ensures : p.Ensures P) : p.Takes :=
  ensures.imp fun _ _ _ => trivial

theorem Consumes.takes (consumes : p.Consumes) : p.Takes := Ensures.takes consumes

theorem consumes_item {expected : List (Option ι)} {f : ι → Span → Option α} :
    (item expected f).Consumes := by
  refine ensures_item.imp ?_
  rintro read _ ⟨x, span, rfl, _⟩
  exact List.cons_ne_nil _ _

theorem takes_finished : (finished : Reader ι Unit).Takes := by
  rintro ⟨items, stop, finish⟩ value rest ok
  cases items with
  | nil =>
      cases ok
      exact ⟨[], .nil _, trivial⟩
  | cons item items => cases ok

theorem Consumes.map (consumes : p.Consumes) (f : α → β) : (p.map f).Consumes := by
  refine (Ensures.map consumes f).imp ?_
  rintro read _ ⟨_, nonempty, _⟩
  exact nonempty

theorem Takes.map (takes : p.Takes) (f : α → β) : (p.map f).Takes := (Ensures.map takes f).takes

theorem Consumes.labelled (consumes : p.Consumes) (label : String) : (p.labelled label).Consumes :=
  Ensures.labelled consumes label

theorem Consumes.check (consumes : p.Consumes) (f : α → Span → Except (Span × Complaint) β) :
    (p.check f).Consumes := by
  refine (Ensures.check consumes id f).imp ?_
  rintro read _ ⟨_, nonempty, _⟩
  exact nonempty

theorem Takes.optional (takes : p.Takes) : p.optional.Takes := (Ensures.optional takes).takes

variable [BEq ι]

theorem Takes.pair (first : p.Takes) (second : q.Takes) : (p.pair q).Takes :=
  (Ensures.pair first second).takes

theorem Takes.second (first : p.Takes) (second : q.Takes) : (p.second q).Takes :=
  (first.pair second).map _

/-- The first of two things is enough. -/
theorem Consumes.pair (first : p.Consumes) (second : q.Takes) : (p.pair q).Consumes := by
  refine (Ensures.pair first second).imp ?_
  rintro read _ ⟨front, back, rfl, nonempty, _⟩
  exact List.append_ne_nil_of_left_ne_nil nonempty back

theorem Consumes.first (first : p.Consumes) (second : q.Takes) : (p.first q).Consumes :=
  (first.pair second).map _

theorem Consumes.second (first : p.Consumes) (second : q.Takes) : (p.second q).Consumes :=
  (first.pair second).map _

theorem consumes_between (opening closing : ι) (takes : p.Takes) :
    (between opening closing p).Consumes :=
  (consumes_item.second takes).first consumes_item.takes

theorem consumes_choice (first : p.Consumes) (others : ∀ p' ∈ ps, p'.Consumes) :
    (choice p ps).Consumes :=
  ensures_choice first others

theorem takes_choice (first : p.Takes) (others : ∀ p' ∈ ps, p'.Takes) : (choice p ps).Takes :=
  ensures_choice first others

theorem Consumes.orElse {q : Reader ι α} (first : p.Consumes) (second : q.Consumes) :
    (p.orElse q).Consumes := by
  intro input value rest ok
  rw [result?_orElse, Option.or_eq_some_iff] at ok
  rcases ok with found | ⟨_, found⟩
  · exact first input value rest found
  · exact second input value rest found

theorem Takes.many (takes : p.Takes) : p.many.Takes := (Ensures.many takes).takes

theorem Consumes.skipTo (consumes : p.Consumes) : (skipTo p).Consumes := by
  refine (Ensures.skipTo consumes).imp ?_
  rintro read _ ⟨front, back, rfl, nonempty⟩
  exact List.append_ne_nil_of_right_ne_nil front nonempty

theorem Consumes.many1 (consumes : p.Consumes) : p.many1.Consumes := by
  refine (Ensures.many1 consumes).imp ?_
  rintro read values ⟨joined, nonempty⟩
  cases joined with
  | nil => exact absurd rfl nonempty
  | cons first others => exact List.append_ne_nil_of_left_ne_nil first _

/-! ## Repetition -/

theorem isSome_many (p : Reader ι α) (input : Input ι) :
    (p.many input).result?.isSome = true := by
  have any (n : Nat) (passed : Option (Failure ι)) (input : Input ι) :
      (Reader.manyUpTo p n passed input).result?.isSome = true := by
    induction n generalizing passed input with
    | zero => rfl
    | succ n ih =>
        rw [Reader.manyUpTo]
        split
        · rfl
        · rw [result?_map, Option.isSome_map]
          exact ih _ _
  exact any _ none input

omit [BEq ι] in
theorem Consumes.length_lt {input rest : Input ι} (consumes : p.Consumes)
    (ok : (p input).result? = some (value, rest)) :
    rest.items.length < input.items.length := by
  obtain ⟨read, took, nonempty⟩ := consumes input value rest ok
  have positive : 0 < read.length := List.length_pos_iff.mpr nonempty
  rw [took.items, List.length_append]
  omega

/-- A count larger than the number of items makes no difference. -/
theorem Consumes.result?_manyUpTo (consumes : p.Consumes) {n n' : Nat} {input : Input ι}
    (enough : input.items.length < n) (enough' : input.items.length < n')
    (passed passed' : Option (Failure ι)) :
    (Reader.manyUpTo p n passed input).result? =
      (Reader.manyUpTo p n' passed' input).result? := by
  induction n generalizing n' input passed passed' with
  | zero => cases enough
  | succ n ih =>
      obtain ⟨n', rfl⟩ : ∃ k, n' = k + 1 := ⟨n' - 1, by omega⟩
      rw [Reader.manyUpTo, Reader.manyUpTo]
      cases replied : p input with
      | failed e => rfl
      | ok value rest more =>
          have shorter := consumes.length_lt (congrArg Reply.result? replied)
          have less : rest.items.length < n := by omega
          have less' : rest.items.length < n' := by omega
          dsimp only
          rw [result?_map, result?_map, ih less less' _ (Failure.join passed' more)]

/-- Repetition is one piece in front of a repetition, or nothing. -/
theorem Consumes.result?_many (consumes : p.Consumes) (input : Input ι) :
    (p.many input).result? =
      match (p input).result? with
      | none => some ([], input)
      | some first => (p.many first.2).result?.map fun others =>
          (first.1 :: others.1, others.2) := by
  unfold Reader.many
  rw [Reader.manyUpTo]
  cases replied : p input with
  | failed e => rfl
  | ok value rest passed =>
      have shorter := consumes.length_lt (congrArg Reply.result? replied)
      dsimp only [Reply.result?_ok]
      rw [result?_map, consumes.result?_manyUpTo shorter (Nat.lt_succ_self _)]

theorem Consumes.result?_many1 (consumes : p.Consumes) (input : Input ι) :
    (p.many1 input).result? =
      (p.pair p.many input).result?.map fun r => (r.1.1 :: r.1.2, r.2) := by
  rw [result?_pair]
  unfold Reader.many1 Reader.many
  cases p input with
  | failed e => rfl
  | ok value rest passed =>
      dsimp only [Reply.result?_ok, Option.bind_some]
      rw [result?_map, consumes.result?_manyUpTo (Nat.lt_succ_self _) (Nat.lt_succ_self _) _ none,
        Option.map_map]
      rfl

end Reader

end TermMachine
