import TermMachine.Proofs.Reader.Progress

/-! # Reading in a longer source

An input is embedded in a longer source if everything in it stands further on and more comes behind.
`Settled d more p input`: the reader `p` does the same with the embedded input as with the input. It
takes the same items for the same value or fails as before, and never gets to see that there is
more.

Readers look at the item in front of them, so what has to be known is only that they do not come to
the end of the input, or that nothing more comes behind it.
-/

namespace TermMachine

/-- The input as part of a longer source. It stands `d` further on, `more` comes behind it, and the
source stops at `finish`. -/
def Input.embed {ι : Type} (d : Nat) (more : List (ι × Span)) (finish : Nat) (input : Input ι) :
    Input ι :=
  ⟨input.items.map (Prod.map id (Span.shift d)) ++ more, input.previousStop + d, finish⟩

theorem spanTo_embed {ι : Type} {d : Nat} {more : List (ι × Span)} {finish : Nat}
    {input : Input ι} (nonempty : input.items ≠ []) (rest : Input ι) :
    (input.embed d more finish).spanTo (rest.embed d more finish) =
      (input.spanTo rest).shift d := by
  obtain ⟨items, stop, finish'⟩ := input
  cases items with
  | nil => exact absurd rfl nonempty
  | cons item items => rfl

namespace Reader

variable {ι α β : Type} {d : Nat} {more : List (ι × Span)} {p : Reader ι α} {q : Reader ι β}
  {input : Input ι}

def Settled (d : Nat) (more : List (ι × Span)) (p : Reader ι α) (input : Input ι) : Prop :=
  ∀ finish, (p (input.embed d more finish)).result? =
    (p input).result?.map fun r => (r.1, r.2.embed d more finish)

/-- There is an item to look at, or nothing that could be looked at in its place. -/
def Ample (more : List (ι × Span)) (input : Input ι) : Prop := input.items ≠ [] ∨ more = []

theorem settled_item {expected : List (Option ι)} {f : ι → Option α} (ample : Ample more input) :
    Settled d more (item expected fun x _ => f x) input := by
  intro finish
  obtain ⟨items, stop, finish'⟩ := input
  cases items with
  | nil =>
      obtain rfl : more = [] := ample.resolve_left (absurd rfl)
      rfl
  | cons first items =>
      cases found : f first.1 with
      | none => simp [item, Input.embed, found]
      | some value => simp [item, Input.embed, found, Span.shift]

theorem settled_finished (ample : Ample more input) :
    Settled d more (finished : Reader ι Unit) input := by
  intro finish
  obtain ⟨items, stop, finish'⟩ := input
  cases items with
  | nil =>
      obtain rfl : more = [] := ample.resolve_left (absurd rfl)
      rfl
  | cons first items => rfl

theorem Settled.map (settled : Settled d more p input) (f : α → β) :
    Settled d more (p.map f) input := by
  intro finish
  rw [result?_map, result?_map, settled, Option.map_map, Option.map_map]
  rfl

theorem Settled.labelled (settled : Settled d more p input) (label : String) :
    Settled d more (p.labelled label) input := by
  intro finish
  rw [result?_labelled, result?_labelled, settled]

/-- A check whose outcome does not depend on where the items stand. -/
theorem Settled.check {f : α → Span → Except (Span × Complaint) β}
    (settled : Settled d more p input)
    (placeless : ∀ value span span', (f value span).toOption = (f value span').toOption) :
    Settled d more (p.check f) input := by
  intro finish
  rw [result?_check, result?_check, settled]
  cases (p input).result? with
  | none => rfl
  | some r =>
      dsimp only [Option.map_some, Option.bind_some]
      rw [placeless r.1 _ (input.spanTo r.2), Option.map_map]
      rfl

theorem Settled.optional (settled : Settled d more p input) :
    Settled d more p.optional input := by
  intro finish
  rw [result?_optional, result?_optional, settled]
  cases (p input).result? <;> rfl

variable [BEq ι]

theorem Settled.pair (first : Settled d more p input)
    (second : ∀ value rest, (p input).result? = some (value, rest) → Settled d more q rest) :
    Settled d more (p.pair q) input := by
  intro finish
  rw [result?_pair, result?_pair, first]
  cases found : (p input).result? with
  | none => rfl
  | some r =>
      dsimp only [Option.map_some, Option.bind_some]
      rw [second r.1 r.2 found, Option.map_map, Option.map_map]
      rfl

theorem Settled.first (first : Settled d more p input)
    (second : ∀ value rest, (p input).result? = some (value, rest) → Settled d more q rest) :
    Settled d more (p.first q) input :=
  (first.pair second).map _

theorem Settled.second (first : Settled d more p input)
    (second : ∀ value rest, (p input).result? = some (value, rest) → Settled d more q rest) :
    Settled d more (p.second q) input :=
  (first.pair second).map _

theorem Settled.orElse {q : Reader ι α} (first : Settled d more p input)
    (second : Settled d more q input) : Settled d more (p.orElse q) input := by
  intro finish
  rw [result?_orElse, result?_orElse, first, second]
  cases (p input).result? <;> rfl

theorem settled_choice_nil (settled : Settled d more p input) :
    Settled d more (choice p []) input := by
  intro finish
  rw [result?_choice, result?_choice]
  simp only [List.findSome?_cons, List.findSome?_nil, settled finish]
  cases (p input).result? <;> rfl

/-- Later alternatives matter only if the first one fails. -/
theorem settled_choice_cons {p' : Reader ι α} {ps : List (Reader ι α)}
    (first : Settled d more p input)
    (others : (p input).result? = none → Settled d more (choice p' ps) input) :
    Settled d more (choice p (p' :: ps)) input := by
  intro finish
  rw [result?_choice, result?_choice]
  simp only [List.findSome?_cons, first finish]
  cases failed : (p input).result? with
  | some r => rfl
  | none =>
      have behind := others failed finish
      rw [result?_choice, result?_choice] at behind
      simp only [List.findSome?_cons] at behind
      exact behind

theorem settled_choice {ps : List (Reader ι α)} (first : Settled d more p input)
    (others : ∀ p' ∈ ps, Settled d more p' input) : Settled d more (choice p ps) input := by
  induction ps generalizing p with
  | nil => exact settled_choice_nil first
  | cons p' ps ih =>
      obtain ⟨next, later⟩ := List.forall_mem_cons.mp others
      exact settled_choice_cons first fun _ => ih next later

/-- What holds where the reader is repeated is kept by each piece. -/
theorem settled_many (holds : Input ι → Prop) (consumes : p.Consumes)
    (settled : ∀ input, holds input → Settled d more p input)
    (kept : ∀ input value rest, holds input → (p input).result? = some (value, rest) → holds rest)
    (here : holds input) : Settled d more p.many input := by
  intro finish
  induction size : input.items.length using Nat.strongRecOn generalizing input with
  | ind n ih =>
      rw [consumes.result?_many, consumes.result?_many, settled input here]
      cases found : (p input).result? with
      | none => rfl
      | some r =>
          have shorter := consumes.length_lt found
          have others := ih _ (size ▸ shorter) (kept input r.1 r.2 here found) rfl
          dsimp only [Option.map_some]
          rw [others, Option.map_map, Option.map_map]
          rfl

theorem settled_many1 (holds : Input ι → Prop) (consumes : p.Consumes)
    (settled : ∀ input, holds input → Settled d more p input)
    (kept : ∀ input value rest, holds input → (p input).result? = some (value, rest) → holds rest)
    (here : holds input) : Settled d more p.many1 input := by
  intro finish
  rw [consumes.result?_many1, consumes.result?_many1]
  have parts : Settled d more (p.pair p.many) input :=
    (settled input here).pair fun value rest found =>
      settled_many holds consumes settled kept (kept input value rest here found)
  rw [parts, Option.map_map, Option.map_map]
  rfl

/-- What is skipped to has to be found, or else it might be found behind the input. -/
theorem settled_skipTo {items : List (ι × Span)} {stop finish : Nat}
    (each : ∀ back stop, back <:+ items → back ≠ [] ∨ more = [] →
      Settled d more p ⟨back, stop, finish⟩)
    (nowhere : ∀ stop, (p ⟨[], stop, finish⟩).result? = none)
    (found : (skipTo p ⟨items, stop, finish⟩).result?.isSome = true ∨ more = []) :
    Settled d more (skipTo p) ⟨items, stop, finish⟩ := by
  intro finish'
  induction items generalizing stop with
  | nil =>
      rw [result?_skipTo_nil, nowhere] at found
      obtain rfl : more = [] := found.resolve_left Bool.false_ne_true
      have here := each [] stop (List.suffix_refl []) (.inr rfl) finish'
      have embedded : Input.embed d [] finish' ⟨[], stop, finish⟩ =
          (⟨[], stop + d, finish'⟩ : Input ι) := rfl
      rw [embedded] at here ⊢
      rw [result?_skipTo_nil, result?_skipTo_nil, here]
  | cons item items ih =>
      have here := each _ stop (List.suffix_refl _) (.inl (List.cons_ne_nil item items)) finish'
      have embedded (stop : Nat) : Input.embed d more finish' ⟨item :: items, stop, finish⟩ =
          ⟨(item.1, item.2.shift d) :: (items.map (Prod.map id (Span.shift d)) ++ more), stop + d,
            finish'⟩ := rfl
      rw [embedded] at here ⊢
      rw [result?_skipTo_cons, result?_skipTo_cons, here]
      cases outcome : (p ⟨item :: items, stop, finish⟩).result? with
      | some r => rfl
      | none =>
          have later := @ih item.2.stop
            (fun back stop suffix => each back stop (suffix.trans (List.suffix_cons item items)))
            (by rwa [result?_skipTo_cons, outcome, Option.none_or] at found)
          exact later

end Reader

end TermMachine
