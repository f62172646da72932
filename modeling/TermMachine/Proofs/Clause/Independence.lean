import TermMachine.Proofs.Clause.Acceptance
import TermMachine.Proofs.Clause.Places
import TermMachine.Proofs.Lexer.Seams

/-! # Clauses are read independently

The reader of clauses does the same with tokens that stand further on, and it does not get to the
end of the source if there is an end of the clause. So a clause that ends is read in the same way
whatever follows it, and the clauses of a source that comes behind another are read as if they came
first.

`readAll_append`: the results for two sources, one behind the other, are those for the one and then
those for the other, further on.
-/

namespace TermMachine

namespace Clause

open Reader

variable {table : OperatorTable} {d finish depth : Nat} {inner : Reader Token (List Item)}

/-! ## The reader of clauses further on -/

/-- The reader of terms does the same further on. -/
def MovesTerm (d : Nat) (p : Reader Token SourceTerm) : Prop :=
  Moves .clauseEnd d (SourceTerm.move d) (fun _ => True) p

def MovesItem (d : Nat) (p : Reader Token Item) : Prop :=
  Moves .clauseEnd d (Item.move d) Item.Placed p

def MovesItems (d : Nat) (p : Reader Token (List Item)) : Prop :=
  Moves .clauseEnd d (List.map (Item.move d)) (∀ item ∈ ·, item.Placed) p

theorem moves_functor : Moves .clauseEnd d (Name.move d) (fun n => 0 < n.span.stop) functor := by
  refine moves_item (fun token span positive => ?_) fun _ => rfl
  cases token with
  | functor text =>
      refine ⟨congrArg some (Name.move_of_placed d positive).symm, fun value found => ?_⟩
      cases found
      exact positive
  | _ => exact ⟨rfl, nofun⟩

theorem moves_compound (moves : MovesItems d inner) (consumes : inner.Consumes) :
    MovesTerm d (compound table inner) := by
  have arguments : Moves .clauseEnd d (List.map (SourceTerm.move d)) (fun _ => True)
      (inner.check (Priority.arguments table)) :=
    moves.check consumes _ fun _ span placed _ =>
      ⟨Priority.arguments_move table placed span, fun _ _ => trivial⟩
  have parts := (moves_functor.pair arguments.optional).first
    (moves_exactly (x := Token.closeRound) Token.noConfusion)
  refine (parts.map _ ?_).labelled _
  rintro ⟨n, args?⟩ _
  refine ⟨?_, trivial⟩
  rw [SourceTerm.move_compound]
  cases args? <;> rfl

theorem moves_wholeTerm (moves : MovesItems d inner) (consumes : inner.Consumes) :
    MovesTerm d (wholeTerm table inner) :=
  moves.check consumes _ fun _ span placed _ =>
    ⟨Priority.resolve_move table maxPriority placed span, fun _ _ => trivial⟩

theorem moves_parenthesised (moves : MovesItems d inner) (consumes : inner.Consumes) :
    MovesTerm d (parenthesised table inner) :=
  (moves_wholeTerm moves consumes).between Token.noConfusion Token.noConfusion

theorem moves_curly (moves : MovesItems d inner) (consumes : inner.Consumes) :
    MovesTerm d (curly table inner) := by
  have between : MovesTerm d (between .openCurly .closeCurly (wholeTerm table inner)) :=
    (moves_wholeTerm moves consumes).between Token.noConfusion Token.noConfusion
  refine between.mapSpan (consumes_between _ _ (consumes.check _).takes) _
    fun t span _ positive => ⟨?_, trivial⟩
  rw [SourceTerm.move_compound, Name.move_of_placed d positive]
  rfl

theorem moves_list (moves : MovesItems d inner) (consumes : inner.Consumes) :
    MovesTerm d (list table inner) := by
  have between : MovesItems d (between .openSquare .closeSquare inner) :=
    moves.between Token.noConfusion Token.noConfusion
  exact (between.check (consumes_between _ _ consumes.takes) _ fun its span placed positive =>
    ⟨Priority.list_move table placed positive, fun _ _ => trivial⟩).labelled _

theorem moves_var : MovesTerm d var := by
  refine (moves_item (fun token span positive => ?_) fun _ => rfl).labelled _
  cases token with
  | var text =>
      exact ⟨congrArg (some ∘ TermOf.var) (Name.move_of_placed d positive).symm,
        fun _ _ => trivial⟩
  | _ => exact ⟨rfl, nofun⟩

theorem moves_number : MovesTerm d number := by
  refine (moves_item (fun token span _ => ?_) fun _ => rfl).labelled _
  cases token with
  | number value => exact ⟨rfl, fun _ _ => trivial⟩
  | _ => exact ⟨rfl, nofun⟩

theorem moves_operand (moves : MovesItems d inner) (ensures : inner.Ensures (ArePieces table)) :
    MovesItem d (operand table inner) := by
  have consumes : inner.Consumes := ensures.imp fun _ _ pieces => pieces.ne_nil
  have any : MovesTerm d (choice (compound table inner) [parenthesised table inner,
      curly table inner, list table inner, var, number]) := by
    apply moves_choice (moves_compound moves consumes)
    simp only [List.forall_mem_cons]
    exact ⟨moves_parenthesised moves consumes, moves_curly moves consumes,
      moves_list moves consumes, moves_var, moves_number, nofun⟩
  refine any.mapSpan ?_ _ fun t span _ positive => ⟨rfl, positive⟩
  exact (ensures_term ensures).imp fun _ _ operand => operand.ne_nil

theorem moves_name : MovesItem d name := by
  refine moves_item (fun token span positive => ?_) fun _ => rfl
  cases token with
  | name text =>
      refine ⟨congrArg (some ∘ Item.name) (Name.move_of_placed d positive).symm,
        fun value found => ?_⟩
      cases found
      exact positive
  | _ => exact ⟨rfl, nofun⟩

theorem moves_mark {token : Token} (inside : token ≠ .clauseEnd) {f : Token → Span → Item}
    (moved : ∀ token span, f token (span.shift d) = (f token span).move d ∧
      (f token span).span = span) : MovesItem d ((exactly token).mapSpan f) := by
  refine (moves_exactly inside).mapSpan consumes_item f fun token span _ positive =>
    ⟨(moved token span).1, ?_⟩
  rw [Item.Placed, (moved token span).2]
  exact positive

/-- However deep the brackets, the items between them are the same further on. -/
theorem moves_items (table : OperatorTable) (d depth : Nat) : MovesItems d (items table depth) := by
  induction depth with
  | zero =>
      constructor
      · intro input finish fits
        simp only [items, fits.offset]
        rfl
      · intro input finish value rest passed fits ok
        cases ok
  | succ depth ih =>
      refine Moves.many1 (moves_choice (moves_operand ih (ensures_items depth)) ?_)
      simp only [List.forall_mem_cons]
      exact ⟨moves_name, moves_mark Token.noConfusion fun _ _ => ⟨rfl, rfl⟩,
        moves_mark Token.noConfusion fun _ _ => ⟨rfl, rfl⟩, nofun⟩

theorem clause_shift (table : OperatorTable) {input : Input Token}
    (fits : Fits .clauseEnd d finish input) :
    clause table (input.shift d finish) =
      (clause table input).shift d finish (SourceTerm.move d) := by
  have length : (input.shift d finish).items.length = input.items.length := List.length_map _
  have inner : (items table (input.items.length + 1)).Consumes :=
    (ensures_items _).imp fun _ _ pieces => pieces.ne_nil
  have term : MovesTerm d (wholeTerm table (items table (input.items.length + 1))) :=
    moves_wholeTerm (moves_items table d _) inner
  unfold clause
  rw [length]
  exact shift_labelled _ (shift_first
    (shift_first (term.replies fits) fun _ _ _ read => shift_exactly _ (term.keeps fits read).2)
    fun _ rest _ _ => shift_finished d finish rest)

theorem blind_items (table : OperatorTable) (depth : Nat) : (items table (depth + 1)).Blind := by
  have term : (choice (compound table (items table depth)) [parenthesised table (items table depth),
      curly table (items table depth), list table (items table depth), var, number]).Blind := by
    apply blind_choice ((blind_item.pair.first.map _).labelled _)
    simp only [List.forall_mem_cons]
    exact ⟨blind_between, blind_between.mapSpan _, (blind_between.check _).labelled _,
      blind_item.labelled _, blind_item.labelled _, nofun⟩
  refine (blind_choice (term.mapSpan _) ?_).many1
  simp only [List.forall_mem_cons]
  exact ⟨blind_item, blind_item.mapSpan _, blind_item.mapSpan _, nofun⟩

/-- Where something in front of the clause stops makes no difference. -/
theorem blind_clause (table : OperatorTable) :
    (clause table).Blind := fun tokens stop stop' finish =>
  (((blind_items table tokens.length).check _).first.first.labelled _) tokens stop stop' finish

def moveResult (d : Nat) : Except SyntaxError SourceTerm → Except SyntaxError SourceTerm
  | .ok t => .ok (SourceTerm.move d t)
  | .error e => .error (e.shift d)

theorem ofTokens_shift {tokens : List (Token × Span)} {finish finish' : Nat}
    (placed : ∀ token ∈ tokens, 0 < token.2.stop)
    (stops : finish' = finish + d ∨ Guarded .clauseEnd tokens) :
    ofTokens table finish' (tokens.map (Prod.map id (Span.shift d))) =
      moveResult d (ofTokens table finish tokens) := by
  have fits : Fits .clauseEnd d finish' ⟨tokens, 0, finish⟩ := ⟨stops, placed⟩
  have moved := clause_shift table fits
  unfold ofTokens
  rw [blind_clause table _ 0 (0 + d)]
  unfold Input.shift at moved
  rw [moved]
  cases clause table ⟨tokens, 0, finish⟩ <;> rfl

/-! ## Clauses of a source -/

theorem flatten_splitClauses (tokens : List (Token × Span)) :
    (splitClauses tokens).flatten = tokens := by
  induction tokens with
  | nil => rfl
  | cons token tokens ih =>
      unfold splitClauses
      split
      · rw [List.flatten_cons, ih, List.singleton_append]
      · split
        · next none => rw [← ih, none]; rfl
        · next clause clauses split => rw [← ih, split]; rfl

theorem splitClauses_map (d : Nat) (tokens : List (Token × Span)) :
    splitClauses (tokens.map (Prod.map id (Span.shift d))) =
      (splitClauses tokens).map (List.map (Prod.map id (Span.shift d))) := by
  induction tokens with
  | nil => rfl
  | cons token tokens ih =>
      simp only [List.map_cons, splitClauses, ih, Prod.map_fst, id]
      split
      · rfl
      · cases splitClauses tokens <;> rfl

theorem splitClauses_ne_nil {tokens : List (Token × Span)} (nonempty : tokens ≠ []) :
    splitClauses tokens ≠ [] := by
  intro empty
  rw [← flatten_splitClauses tokens, empty] at nonempty
  exact nonempty rfl

/-- Tokens behind the end of a clause make clauses of their own. The clauses in front of them have
an end. -/
theorem splitClauses_append {tokens : List (Token × Span)}
    (last : tokens.getLast?.map Prod.fst = some .clauseEnd) (tokens' : List (Token × Span)) :
    splitClauses (tokens ++ tokens') = splitClauses tokens ++ splitClauses tokens' ∧
      ∀ clause ∈ splitClauses tokens, Guarded .clauseEnd clause := by
  induction tokens with
  | nil => cases last
  | cons token tokens ih =>
      by_cases ended : token.1 = .clauseEnd
      · have guarded : Guarded .clauseEnd [token] := ended ▸ guarded_single token.1 token.2
        simp only [List.cons_append, splitClauses, if_pos ended, List.forall_mem_cons]
        cases tokens with
        | nil => exact ⟨rfl, guarded, List.forall_mem_nil _⟩
        | cons next tokens =>
            rw [List.getLast?_cons_cons] at last
            obtain ⟨split, others⟩ := ih last
            exact ⟨congrArg _ split, guarded, others⟩
      · cases tokens with
        | nil => exact absurd (Option.some.inj last) ended
        | cons next tokens =>
            rw [List.getLast?_cons_cons] at last
            obtain ⟨split, others⟩ := ih last
            rw [List.cons_append, splitClauses, splitClauses, if_neg ended, if_neg ended, split]
            cases clauses : splitClauses (next :: tokens) with
            | nil => exact absurd clauses (splitClauses_ne_nil (List.cons_ne_nil _ _))
            | cons clause clauses =>
                rw [clauses, List.forall_mem_cons] at others
                exact ⟨rfl, List.forall_mem_cons.mpr ⟨others.1.cons ended, others.2⟩⟩

/-- A clause that ends is read in the same way however far the source goes on. -/
theorem ofTokens_of_guarded {tokens : List (Token × Span)} {finish finish' : Nat}
    (placed : ∀ token ∈ tokens, 0 < token.2.stop) (guarded : Guarded .clauseEnd tokens) :
    ofTokens table finish' tokens = ofTokens table finish tokens := by
  have here : tokens.map (Prod.map id (Span.shift 0)) = tokens := List.map_id _
  have either (finish' : Nat) :
      ofTokens table finish' tokens = moveResult 0 (ofTokens table finish tokens) := by
    rw [← ofTokens_shift placed (.inr guarded), here]
  rw [either finish', ← either finish]

/-- The results for two sources, one behind the other, are the results for the one and then, moved
by its length, those for the other. The first source has to end with the end of a clause and a line
feed, and no name in it may open a comment, which the second source could close. -/
theorem readAll_append (table : OperatorTable) {source source' : List Char}
    {tokens tokens' : List (Token × Span)} (ok : tokenize source = .ok tokens)
    (ok' : tokenize source' = .ok tokens')
    (last : tokens.getLast?.map Prod.fst = some .clauseEnd)
    (newline : source.getLast? = some '\n')
    (bare : ∀ token ∈ tokens, ¬['/', '*'] <+: source.drop token.2.start) :
    readAll table (source ++ source') =
      readAll table source ++ (readAll table source').map (moveResult source.length) := by
  obtain ⟨split, guarded⟩ := splitClauses_append last
    (tokens'.map (Prod.map id (Span.shift source.length)))
  have within {tokens clause : List (Token × Span)} (mem : clause ∈ splitClauses tokens)
      (placed : ∀ token ∈ tokens, 0 < token.2.stop) : ∀ token ∈ clause, 0 < token.2.stop :=
    fun token inside => placed token
      (flatten_splitClauses tokens ▸ List.mem_flatten_of_mem mem inside)
  unfold readAll
  rw [Lexer.tokenize_append ok ok' last newline bare, ok, ok']
  simp only [split, splitClauses_map, List.map_append, List.map_map, List.length_append]
  congr 1
  · exact List.map_congr_left fun clause mem =>
      ofTokens_of_guarded (within mem (Lexer.stop_pos_of_tokenize ok)) (guarded clause mem)
  · exact List.map_congr_left fun clause mem =>
      ofTokens_shift (within mem (Lexer.stop_pos_of_tokenize ok')) (.inl (Nat.add_comm _ _))

/-- Behind a clause at fault and a good one come a good one and one at fault. -/
theorem readAll_append_faulty :
    readAll .standard ("a b.\nf(x).\n".toList ++ "g(Y). (".toList) =
        readAll .standard "a b.\nf(x).\n".toList ++
          (readAll .standard "g(Y). (".toList).map (moveResult 11) ∧
      (readAll .standard ("a b.\nf(x).\n".toList ++ "g(Y). (".toList)).map Except.toBool =
        [false, true, true, false] := by
  have ok : tokenize "a b.\nf(x).\n".toList =
      .ok [(.name "a", ⟨0, 1⟩), (.name "b", ⟨2, 3⟩), (.clauseEnd, ⟨3, 5⟩), (.functor "f", ⟨5, 7⟩),
        (.name "x", ⟨7, 8⟩), (.closeRound, ⟨8, 9⟩), (.clauseEnd, ⟨9, 11⟩)] := by decide +kernel
  have ok' : tokenize "g(Y). (".toList =
      .ok [(.functor "g", ⟨0, 2⟩), (.var "Y", ⟨2, 3⟩), (.closeRound, ⟨3, 4⟩), (.clauseEnd, ⟨4, 6⟩),
        (.openRound, ⟨6, 7⟩)] := by decide +kernel
  exact ⟨readAll_append .standard ok ok' rfl rfl (by decide), by decide +kernel⟩

end Clause

end TermMachine
