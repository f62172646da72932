import TermMachine.Proofs.Heap.Acyclic
import TermMachine.Proofs.Heap.Unfolding
import TermMachine.Proofs.Machine.Writes
import TermMachine.Proofs.Solving.Names

/-! # What is read back from a heap

A heap is a graph in which structures are shared and may contain themselves. `ReadBack` says which
finite term is made of it: every structure is written out wherever it is met, but inside of itself,
where a name stands for it. The structures around a place are all different, so one level more than
there are structures is deep enough.

`reify_exact`: after a run that has succeeded this is what every address from a register is read
back as. No part of the heap is lost that way: with every name replaced by what it stands for, the
term is the tree that the address unfolds to.
-/

namespace TermMachine

namespace Heap

variable {h : Heap} {ps : List Address} {a p : Address} {s : Symbol} {t : TermOf Meaning}

def symbols (h : Heap) : List Address :=
  (List.range h.top).filter fun p =>
    match h.cells[p]? with
    | some (.symbol _) => true
    | _ => false

/-- The term that is read from an address inside of structures with their symbols at `ps`, the
innermost one first. -/
inductive ReadBack (h : Heap) : List Address → Address → TermOf Meaning → Prop
  | unbound {ps : List Address} {a b : Address} (hu : h.Unbound a b) :
      ReadBack h ps a (.var (.inr (.unbound b)))
  | cut {ps : List Address} {a p : Address} {s : Symbol} (hc : h.Compound a s p)
      (inside : p ∈ ps) : ReadBack h ps a (.var (.inr (.compound (p + 1))))
  | constant {ps : List Address} {a p : Address} {s : Symbol} (hc : h.Compound a s p)
      (outside : p ∉ ps) (none : s.arity = 0) : ReadBack h ps a (.atom (.inl s.name))
  | compound {ps : List Address} {a p : Address} {s : Symbol} {args : List (TermOf Meaning)}
      (hc : h.Compound a s p) (outside : p ∉ ps) (some : s.arity ≠ 0)
      (count : args.length = s.arity)
      (below : ∀ i (hi : i < args.length), ReadBack h (p :: ps) (p + 1 + i) args[i]) :
      ReadBack h ps a (.compound (.inl s.name) args)

/-! ## Reading back ends -/

theorem mem_symbols_iff : p ∈ h.symbols ↔ ∃ s, h.cells[p]? = some (.symbol s) := by
  rw [symbols, List.mem_filter, List.mem_range]
  constructor
  · rintro ⟨_, symbol⟩
    split at symbol
    · next s cell => exact ⟨s, cell⟩
    · cases symbol
  · rintro ⟨s, cell⟩
    exact ⟨lt_top_of_cell cell, by rw [cell]⟩

structure Different (h : Heap) (ps : List Address) : Prop where
  nodup : ps.Nodup
  symbols : ps ⊆ h.symbols

theorem Different.nil (h : Heap) : h.Different [] := ⟨List.nodup_nil, List.nil_subset _⟩

theorem Different.cons (different : h.Different ps) (hc : h.Compound a s p) (outside : p ∉ ps) :
    h.Different (p :: ps) := by
  obtain ⟨_, _, _, symbol⟩ := hc
  have known := mem_symbols_iff.mpr ⟨s, symbol⟩
  exact ⟨List.nodup_cons.mpr ⟨outside, different.nodup⟩,
    List.cons_subset.mpr ⟨known, different.symbols⟩⟩

theorem Different.length_le (different : h.Different ps) : ps.length ≤ h.symbols.length :=
  (different.nodup.subperm different.symbols).length_le

/-- On the way down the structures run out. -/
theorem Readable.exists_readBack (hr : h.Readable) (term : h.IsTerm a)
    (different : h.Different ps) : ∃ t, h.ReadBack ps a t := by
  induction left : h.symbols.length - ps.length using Nat.strongRecOn generalizing ps a with
  | ind n ih =>
      subst left
      rcases hr.value term with ⟨b, hb⟩ | ⟨s, p, hp⟩
      · exact ⟨_, .unbound hb⟩
      · by_cases inside : p ∈ ps
        · exact ⟨_, .cut hp inside⟩
        · by_cases none : s.arity = 0
          · exact ⟨_, .constant hp inside none⟩
          · have deeper := different.cons hp inside
            have le := deeper.length_le
            rw [List.length_cons] at le
            have each (i : Fin s.arity) : ∃ t, h.ReadBack (p :: ps) (p + 1 + i) t := by
              refine ih _ ?_ (hr.argument hp i.isLt) deeper rfl
              rw [List.length_cons]
              omega
            choose args read using each
            have count : (List.ofFn args).length = s.arity := List.length_ofFn
            refine ⟨_, .compound hp inside none count fun i hi => ?_⟩
            rw [List.getElem_ofFn]
            exact read ⟨i, count ▸ hi⟩

theorem contains_compound_iff :
    (ps.map fun p => Identity.compound (p + 1)).contains (.compound (p + 1)) = true ↔ p ∈ ps := by
  simp

theorem ReadBack.unnamedWithin (read : h.ReadBack ps a t) (different : h.Different ps)
    {depth : Nat} (enough : h.symbols.length ≤ depth + ps.length) :
    h.unnamedWithin (depth + 1) (ps.map fun p => .compound (p + 1)) a = .ok t := by
  induction read generalizing depth with
  | unbound hu => simp only [Heap.unnamedWithin, inspect_eq_unbound_iff.mpr hu]
  | cut hc inside =>
      obtain ⟨_, _, _, inspected⟩ := hc.inspect
      simp only [Heap.unnamedWithin, inspected]
      rw [if_pos (contains_compound_iff.mpr inside)]
  | constant hc outside none =>
      obtain ⟨_, _, _, inspected⟩ := hc.inspect
      simp only [Heap.unnamedWithin, inspected]
      rw [if_neg (mt contains_compound_iff.mp outside), if_pos none]
  | @compound ps a p s args hc outside some count _ ih =>
      obtain ⟨_, _, _, inspected⟩ := hc.inspect
      have deeper := different.cons hc outside
      have le := deeper.length_le
      rw [List.length_cons] at le
      obtain ⟨depth, rfl⟩ : ∃ d, depth = d + 1 := ⟨depth - 1, by omega⟩
      have room : h.symbols.length ≤ depth + (p :: ps).length := by
        rw [List.length_cons]
        omega
      have each : collect
          (h.unnamedWithin (depth + 1) (.compound (p + 1) :: ps.map fun p => .compound (p + 1)))
          (Arguments.addresses ⟨p + 1, s.arity⟩) = .ok args := by
        refine collect_eq_ok_iff.mpr (List.ext_getElem ?_ fun i _ hi => ?_)
        · simp [Arguments.addresses, count]
        · rw [List.length_map] at hi
          have here := ih i hi deeper room
          simpa [Arguments.addresses] using here
      rw [Heap.unnamedWithin]
      simp only [inspected]
      rw [if_neg (mt contains_compound_iff.mp outside), if_neg some, each]

theorem ReadBack.reifyWithin (read : h.ReadBack [] a t) (names : Naming) {depth : Nat}
    (enough : h.symbols.length < depth) :
    h.reifyWithin names depth [] a = .ok (t.map names.shown) := by
  obtain ⟨depth, rfl⟩ : ∃ d, depth = d + 1 := ⟨depth - 1, by omega⟩
  have unnamed := read.unnamedWithin (.nil h) (Nat.le_of_lt_succ enough)
  rw [List.map_nil] at unnamed
  rw [reifyWithin_eq_map, unnamed]
  rfl

theorem symbols_le (h : Heap) : h.symbols.length ≤ h.top :=
  (List.length_filter_le _ _).trans_eq List.length_range

theorem ReadBack.reify (read : h.ReadBack [] a t) (names : Naming) :
    h.reify names a = .ok (t.map names.shown) := by
  have le := h.symbols_le
  exact read.reifyWithin names (by omega)

/-! ## Places -/

/-- A place in a term that was read from `a`: the symbols of the structures around it, the innermost
one first, its address, and what stands there. -/
inductive Place (h : Heap) (a : Address) (t : TermOf Meaning) :
    List Address → Address → TermOf Meaning → Prop
  | root : Place h a t [] a t
  | argument {ps : List Address} {b p : Address} {s : Symbol} {d : Meaning}
      {args : List (TermOf Meaning)} {i : Nat} {u : TermOf Meaning}
      (outer : Place h a t ps b (.compound d args)) (hc : h.Compound b s p)
      (arg : args[i]? = some u) : Place h a t (p :: ps) (p + 1 + i) u

theorem ReadBack.atPlace (read : h.ReadBack [] a t) {b : Address} {u : TermOf Meaning}
    (place : h.Place a t ps b u) : h.ReadBack ps b u := by
  induction place with
  | root => exact read
  | argument _ hc arg ih =>
      cases ih with
      | compound hc' _ _ _ below =>
          obtain ⟨_, rfl⟩ := hc.unique hc'
          obtain ⟨hi, rfl⟩ := List.getElem?_eq_some_iff.mp arg
          exact below _ hi

/-- Names stand for structures only where these are inside of themselves. -/
theorem ReadBack.isVar_iff (read : h.ReadBack ps a t) (hc : h.Compound a s p) :
    (∃ d, t = .var d) ↔ p ∈ ps := by
  cases read with
  | unbound hu => exact absurd hu hc.not_unbound
  | cut hc' inside =>
      obtain ⟨_, rfl⟩ := hc.unique hc'
      exact ⟨fun _ => inside, fun _ => ⟨_, rfl⟩⟩
  | constant hc' outside _ =>
      obtain ⟨_, rfl⟩ := hc.unique hc'
      exact ⟨fun ⟨_, same⟩ => (nomatch same), fun inside => absurd inside outside⟩
  | compound hc' outside _ _ _ =>
      obtain ⟨_, rfl⟩ := hc.unique hc'
      exact ⟨fun ⟨_, same⟩ => (nomatch same), fun inside => absurd inside outside⟩

/-! ## What the term stands for -/

def treeOf (h : Heap) : Identity → Tree Address
  | .unbound b => Tree.leaf b
  | .compound first =>
      match h.cells[first - 1]? with
      | some (.symbol s) => Trees.node s.name (treesAt h.tree first s.arity)
      | _ => Tree.leaf first

mutual

/-- The tree that a term unfolds to if its names are replaced by what they stand for in the heap. -/
def unfolded (h : Heap) : TermOf Meaning → Tree Address
  | .atom d => Trees.node (Naming.shown [] d) []
  | .number value => Trees.node (toString value) []
  | .var (.inl name) => Trees.node name []
  | .var (.inr i) => h.treeOf i
  | .compound d args => Trees.node (Naming.shown [] d) (h.unfoldedAll args)

def unfoldedAll (h : Heap) : List (TermOf Meaning) → List (Tree Address)
  | [] => []
  | t :: ts => h.unfolded t :: h.unfoldedAll ts

end

theorem unfoldedAll_eq_map (h : Heap) (ts : List (TermOf Meaning)) :
    h.unfoldedAll ts = ts.map h.unfolded := by
  induction ts with
  | nil => rfl
  | cons t ts ih => rw [unfoldedAll, ih, List.map_cons]

theorem Compound.treeOf (hc : h.Compound a s p) : h.treeOf (.compound (p + 1)) = h.tree a := by
  rw [hc.tree]
  obtain ⟨_, _, _, symbol⟩ := hc
  simp only [Heap.treeOf, Nat.add_sub_cancel, symbol]

theorem ReadBack.unfolded (read : h.ReadBack ps a t) : h.unfolded t = h.tree a := by
  induction read with
  | unbound hu => exact hu.tree.symm
  | cut hc _ => exact hc.treeOf
  | constant hc _ none =>
      rw [hc.tree, none]
      rfl
  | compound hc _ _ count _ ih =>
      rw [hc.tree, Heap.unfolded, unfoldedAll_eq_map]
      refine congrArg (Trees.node _) (List.ext_getElem ?_ fun i hi _ => ?_)
      · rw [List.length_map, length_treesAt, count]
      · rw [List.length_map] at hi
        rw [List.getElem_map, getElem_treesAt]
        exact ih i hi

/-- No structure that can be reached from the address contains itself. -/
def AcyclicBelow (h : Heap) (a : Address) : Prop :=
  ∀ c, Relation.ReflTransGen h.HasArgument a c → ¬Relation.TransGen h.HasArgument c c

theorem AcyclicBelow.argument (acyclic : h.AcyclicBelow a) {c : Address}
    (mem : h.HasArgument a c) : h.AcyclicBelow c :=
  fun d path => acyclic d (path.head mem)

/-- All cells for one structure have the same arguments. -/
theorem HasArgument.of_compound {b c : Address} {s' : Symbol} (mem : h.HasArgument a c)
    (ha : h.Compound a s p) (hb : h.Compound b s' p) : h.HasArgument b c := by
  rwa [HasArgument, hb.argumentsOf, ← ha.symbol_eq hb, ← ha.argumentsOf]

/-- Without cycles nothing is cut. -/
theorem ReadBack.denotes (read : h.ReadBack ps a t) (names : Naming) (acyclic : h.AcyclicBelow a)
    (around : ∀ p ∈ ps, ∃ c s, h.Compound c s p ∧ Relation.TransGen h.HasArgument c a) :
    h.Denotes (fun b => .var (names.name (.unbound b))) a (t.map names.shown) := by
  induction read with
  | unbound hu => exact .unbound hu
  | @cut ps a p s hc inside =>
      -- the structure would be inside of itself: the way down from its other cell starts here too
      obtain ⟨c, _, outer, path⟩ := around p inside
      obtain ⟨d, mem, rest⟩ := Relation.TransGen.head'_iff.mp path
      exact absurd (.head' (mem.of_compound outer hc) rest) (acyclic a .refl)
  | @constant ps a p s hc _ none =>
      show h.Denotes _ a (Term.apply s.name [])
      exact .compound hc none.symm nofun
  | @compound ps a p s args hc outside some count _ ih =>
      have node : (TermOf.compound (.inl s.name) args).map names.shown =
          Term.apply s.name (args.map (TermOf.map names.shown)) := by
        rw [TermOf.map, TermOf.mapAll_eq_map]
        cases args with
        | nil => exact absurd count.symm some
        | cons arg args => rfl
      rw [node]
      refine .compound hc (by rw [List.length_map, count]) fun i hi => ?_
      rw [List.length_map] at hi
      rw [List.getElem_map]
      have mem := hc.hasArgument (count ▸ hi)
      refine ih i hi (acyclic.argument mem) fun q hq => ?_
      rcases List.mem_cons.mp hq with rfl | hq
      · exact ⟨a, s, hc, .single mem⟩
      · obtain ⟨c, s', outer, path⟩ := around q hq
        exact ⟨c, s', outer, path.tail mem⟩

end Heap

namespace Machine

variable {registerCount : Nat} {limits : Limits} {m m' : Machine}

/-- After a successful run a term can be read back from every address in a register, and no deeper
than there are structures and one level more. It has a name in the place of a structure exactly
where that is inside of itself; with its names replaced by what they stand for it unfolds to the
tree that is found in the heap; and without cycles it is the term that the address denotes. -/
theorem reify_exact (reached : Reachable registerCount limits m) {fuel : Nat}
    {is : List Instruction} (ran : m.run fuel is = .ok m') (succeeded : m'.hasFailed = false)
    {x : Register} {a : Address} (found : m'.register x = .ok (some a)) (names : Naming) :
    ∃ t : TermOf Meaning,
      m'.heap.reify names a = .ok (t.map names.shown) ∧
      (∀ depth, m'.heap.symbols.length < depth →
        m'.heap.reifyWithin names depth [] a = .ok (t.map names.shown)) ∧
      (∀ ps b u, m'.heap.Place a t ps b u → m'.heap.ReadBack ps b u ∧
        ∀ s p, m'.heap.Compound b s p → ((∃ d, u = .var d) ↔ p ∈ ps)) ∧
      m'.heap.unfolded t = m'.heap.tree a ∧
      (m'.heap.AcyclicBelow a →
        m'.heap.Denotes (fun b => .var (names.name (.unbound b))) a (t.map names.shown)) := by
  have alive : m'.status ≠ .failed := by simpa [hasFailed] using succeeded
  have heap := reached.heap_of_run ran alive
  have term : m'.heap.IsTerm a := by
    have after := (reached.run fuel is).wellFormed
    rw [ran] at after
    exact after.registers (register_eq_ok_iff.mp found)
  obtain ⟨t, read⟩ := heap.readable.exists_readBack term (.nil m'.heap)
  refine ⟨t, read.reify names, fun depth enough => read.reifyWithin names enough,
    fun ps b u place => ?_, read.unfolded, fun acyclic => ?_⟩
  · have here := read.atPlace place
    exact ⟨here, fun s p hc => here.isVar_iff hc⟩
  · exact read.denotes names acyclic fun p inside => absurd inside List.not_mem_nil

/-- For `p(X, X)` and `p(Y, f(Y))` both arguments are one structure that contains itself. It is
written out twice, and cut where it is inside of itself. All three levels are needed. -/
theorem reify_exact_cyclic :
    let u := CompiledUnit.ofTerms (.compound "p" [.var "X", .var "X"])
      (.compound "p" [.var "Y", .compound "f" [.var "Y"]])
    let built := (new u.registerCount .unlimited).after 10 [u.query.instructions]
    let m := (built.run 10 u.program.instructions).machine
    let value : Term := .compound "p" [.compound "f" [.var "_G6"], .compound "f" [.var "_G6"]]
    m.heap.symbols.length = 2 ∧ m.heap.reifyWithin [] 2 [] 0 = .error .tooDeep ∧
      ∃ t : TermOf Meaning, t.map (Naming.shown []) = value ∧
        m.heap.reifyWithin [] 3 [] 0 = .ok value ∧ m.heap.unfolded t = m.heap.tree 0 := by
  intro u built m value
  have reached : Reachable u.registerCount .unlimited built :=
    Reachable.new.after 10 [u.query.instructions]
  have ends : (match built.run 10 u.program.instructions with
    | .ok _ => true
    | _ => false) = true := by decide +kernel
  have ran : built.run 10 u.program.instructions = .ok m := by
    show _ = Outcome.ok (built.run 10 u.program.instructions).machine
    generalize built.run 10 u.program.instructions = outcome at ends ⊢
    cases outcome with
    | ok m => rfl
    | error e m => cases ends
    | unfinished m => cases ends
  have succeeded : m.hasFailed = false := by decide +kernel
  have found : m.register 0 = .ok (some 0) := by decide +kernel
  have count : m.heap.symbols.length = 2 := by decide +kernel
  obtain ⟨t, read, within, _, tree, _⟩ := reify_exact reached ran succeeded found []
  have known : m.heap.reify [] 0 = .ok value := by decide +kernel
  have named : t.map (Naming.shown []) = value := Except.ok.inj (read.symm.trans known)
  have deep := within 3 (by omega)
  rw [named] at deep
  exact ⟨count, by decide +kernel, t, named, deep, tree⟩

end Machine

end TermMachine
