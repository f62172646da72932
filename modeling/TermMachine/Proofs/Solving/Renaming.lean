import TermMachine.Proofs.Compilation
import TermMachine.Proofs.Solving.Attempt
import Mathlib.Data.Set.Function

/-! # Variables under other names

The names of variables are looked at twice on the way to code: variables of one name get one
register, and each name is listed once. As long as different variables get different names, nothing
else can be seen of a change of names, `compile_rename`: the code stays the same to the instruction,
and so does every run of it. That holds for the query and the program separately. They are never
looked at together before the answer is made, and a name that both of them have means two variables.

The walk that hands out registers is compared with the walk through the renamed term. `Renames` is
the relation between the two supplies; every function of the walk keeps it.
-/

namespace TermMachine

/-! ## Renaming -/

def Term.rename (r : String → String) (t : Term) : Term := subst (fun name => .var (r name)) t

def renameKeys {α : Type} (r : String → String) (pairs : List (String × α)) :
    List (String × α) :=
  pairs.map fun pair => (r pair.1, pair.2)

def CompiledTerm.rename (r : String → String) (c : CompiledTerm) : CompiledTerm :=
  { c with vars := renameKeys r c.vars }

def CompiledUnit.rename (r r' : String → String) (u : CompiledUnit) : CompiledUnit :=
  ⟨u.query.rename r, u.program.rename r'⟩

mutual

def Node.rename (r : String → String) : Node → Node
  | .constant x => .constant x
  | .var x name => .var x (r name)
  | .compound x name args => .compound x name (Node.renameAll r args)

def Node.renameAll (r : String → String) : List Node → List Node
  | [] => []
  | node :: nodes => node.rename r :: Node.renameAll r nodes

end

variable {r : String → String}

namespace Term

theorem rename_compound (name : String) (args : List Term) :
    rename r (.compound name args) = .compound name (args.map (rename r)) := by
  rw [rename, subst, substAll_eq_map]
  rfl

theorem occurrences_rename (t : Term) : (rename r t).occurrences = t.occurrences.map r := by
  induction t using TermOf.induction with
  | atom name => rfl
  | number value => rfl
  | var name => rfl
  | compound name args ih =>
      rw [rename_compound, TermOf.occurrences, TermOf.occurrences, occurrencesAll_eq_flatMap,
        occurrencesAll_eq_flatMap, List.flatMap_map, List.map_flatMap]
      exact List.flatMap_congr ih

theorem preorder_rename (t : Term) : (rename r t).preorder = t.preorder.map (rename r) := by
  induction t using TermOf.induction with
  | atom name => rfl
  | number value => rfl
  | var name => rfl
  | compound name args ih =>
      rw [rename_compound, TermOf.preorder, TermOf.preorder, TermOf.preorderAll_eq_flatMap,
        TermOf.preorderAll_eq_flatMap, List.map_cons, rename_compound, List.flatMap_map,
        List.map_flatMap]
      exact congrArg _ (List.flatMap_congr ih)

theorem args_rename (t : Term) : (rename r t).args = t.args.map (rename r) := by
  cases t with
  | atom name => rfl
  | number value => rfl
  | var name => rfl
  | compound name args => rw [rename_compound, TermOf.args, TermOf.args]

/-- The first application that is too wide is the same one. -/
theorem tooWide?_rename (t : Term) : (rename r t).tooWide? = t.tooWide? := by
  have parts : rename r t :: (rename r t).preorder.flatMap TermOf.args =
      (t :: t.preorder.flatMap TermOf.args).map (rename r) := by
    rw [List.map_cons, preorder_rename, List.flatMap_map, List.map_flatMap]
    exact congrArg _ (List.flatMap_congr fun s _ => args_rename s)
  rw [tooWide?, tooWide?, parts, List.findSome?_map]
  refine congrFun (congrArg _ (funext fun s => ?_)) _
  cases s with
  | atom name => rfl
  | number value => rfl
  | var name => rfl
  | compound name args => simp only [Function.comp_apply, rename_compound, List.length_map]

end Term

/-! ## Nodes -/

namespace Node

theorem renameAll_eq_map (nodes : List Node) : renameAll r nodes = nodes.map (rename r) := by
  induction nodes with
  | nil => rfl
  | cons node nodes ih => rw [renameAll, ih, List.map_cons]

theorem rename_compound (x : Register) (name : String) (args : List Node) :
    rename r (.compound x name args) = .compound x name (args.map (rename r)) := by
  rw [rename, renameAll_eq_map]

theorem register_rename (node : Node) : (node.rename r).register = node.register := by
  cases node with
  | constant x => rfl
  | var x name => rfl
  | compound x name args => rfl

theorem preorder_rename (node : Node) :
    (node.rename r).preorder = node.preorder.map (rename r) := by
  induction node using Node.induction with
  | constant x => rfl
  | var x name => rfl
  | compound x name args ih =>
      rw [rename_compound, preorder, preorder, preorderAll_eq_flatMap, preorderAll_eq_flatMap,
        List.map_cons, rename_compound, List.flatMap_map, List.map_flatMap]
      exact congrArg _ (List.flatMap_congr ih)

end Node

namespace Code

open Node

theorem setArgument_rename (seen : Seen) (node : Node) :
    setArgument seen (node.rename r) = setArgument seen node := by
  cases node with
  | constant x => rfl
  | var x name => rfl
  | compound x name args => rfl

theorem setArguments_rename (seen : Seen) (nodes : List Node) :
    setArguments seen (nodes.map (rename r)) = setArguments seen nodes := by
  induction nodes generalizing seen with
  | nil => rfl
  | cons node nodes ih => simp only [List.map_cons, setArguments, setArgument_rename, ih]

/-- What is built does not depend on names of variables. -/
theorem build_rename (seen : Seen) (node : Node) :
    build seen (node.rename r) = build seen node := by
  induction node using Node.induction generalizing seen with
  | constant x => rfl
  | var x name => rfl
  | compound x name args ih =>
      have parts (seen : Seen) (nodes : List Node) (sub : ∀ n ∈ nodes, n ∈ args) :
          buildAll seen (nodes.map (rename r)) = buildAll seen nodes := by
        induction nodes generalizing seen with
        | nil => rfl
        | cons n nodes ih' =>
            rw [List.map_cons, buildAll_cons, buildAll_cons, ih n (sub n List.mem_cons_self),
              ih' _ fun m hm => sub m (List.mem_cons_of_mem _ hm)]
      rw [rename_compound, build_compound, build_compound, parts seen args fun _ hn => hn,
        setArguments_rename, List.length_map]

theorem unifyArgument_rename (seen : Seen) (node : Node) :
    unifyArgument seen (node.rename r) = unifyArgument seen node := by
  cases node with
  | constant x => rfl
  | var x name => rfl
  | compound x name args => rfl

theorem unifyArguments_rename (seen : Seen) (nodes : List Node) :
    unifyArguments seen (nodes.map (rename r)) = unifyArguments seen nodes := by
  induction nodes generalizing seen with
  | nil => rfl
  | cons node nodes ih => simp only [List.map_cons, unifyArguments, unifyArgument_rename, ih]

/-- What is matched does not depend on names of variables. -/
theorem matchAll_rename (seen : Seen) (nodes : List Node) :
    matchAll seen (nodes.map (rename r)) = matchAll seen nodes := by
  induction nodes generalizing seen with
  | nil => rfl
  | cons node nodes ih =>
      cases node with
      | constant x => exact ih seen
      | var x name => exact ih seen
      | compound x name args =>
          rw [List.map_cons, rename_compound, matchAll_compound, matchAll_compound,
            unifyArguments_rename, List.length_map, ih]

end Code

/-! ## Names that stay different -/

section

variable {V : Set String}

/-- A name is found where it was. -/
theorem lookup_renameKeys {α : Type} (inj : Set.InjOn r V) {pairs : List (String × α)}
    (within : ∀ pair ∈ pairs, pair.1 ∈ V) {name : String} (mem : name ∈ V) :
    (renameKeys r pairs).lookup (r name) = pairs.lookup name := by
  induction pairs with
  | nil => rfl
  | cons pair pairs ih =>
      obtain ⟨first, rest⟩ := List.forall_mem_cons.mp within
      have same : (r name == r pair.1) = (name == pair.1) := by
        rw [Bool.eq_iff_iff, beq_iff_eq, beq_iff_eq]
        exact inj.eq_iff mem first
      show List.lookup (r name) ((r pair.1, pair.2) :: renameKeys r pairs) = _
      rw [List.lookup_cons, List.lookup_cons, same, ih rest]

/-- Each name is listed once, in the same order. -/
theorem eraseDups_map (inj : Set.InjOn r V) {names : List String} (within : ∀ v ∈ names, v ∈ V) :
    (names.map r).eraseDups = names.eraseDups.map r := by
  induction size : names.length using Nat.strongRecOn generalizing names with
  | ind n ih =>
      subst size
      cases names with
      | nil => rfl
      | cons name names =>
          obtain ⟨first, rest⟩ := List.forall_mem_cons.mp within
          have others : (names.map r).filter (fun v => !v == r name) =
              (names.filter fun v => !v == name).map r := by
            rw [List.filter_map]
            refine congrArg _ (List.filter_congr fun v mem => ?_)
            rw [Function.comp_apply, Bool.not_inj_iff, Bool.eq_iff_iff, beq_iff_eq, beq_iff_eq]
            exact inj.eq_iff (rest v mem) first
          rw [List.map_cons, List.eraseDups_cons, List.eraseDups_cons, others, List.map_cons]
          rw [ih _ (Nat.lt_succ_of_le (List.length_filter_le _ names))
            (fun v mem => rest v (List.mem_of_mem_filter mem)) rfl]

theorem Term.vars_rename (inj : Set.InjOn r V) {t : Term} (within : ∀ v ∈ t.occurrences, v ∈ V) :
    (t.rename r).vars = t.vars.map r := by
  rw [TermOf.vars, Term.occurrences_rename, eraseDups_map inj within, TermOf.vars]

/-! ## The walk -/

/-- What is left to hand out on the walk through a term with variables in `V`, and on the walk
through the renamed term. -/
structure Supply.Renames (r : String → String) (V : Set String) (s s' : Supply) : Prop where
  next : s'.next = s.next
  vars : s'.vars = renameKeys r s.vars
  within : ∀ pair ∈ s.vars, pair.1 ∈ V

variable {s s' : Supply}

namespace Supply

theorem Renames.ofVariable (renames : s.Renames r V s') (inj : Set.InjOn r V) {name : String}
    (mem : name ∈ V) : (s'.ofVariable (r name)).1 = (s.ofVariable name).1 ∧
      (s.ofVariable name).2.Renames r V (s'.ofVariable (r name)).2 := by
  have looked : s'.vars.lookup (r name) = s.vars.lookup name := by
    rw [renames.vars, lookup_renameKeys inj renames.within mem]
  unfold Supply.ofVariable
  rw [looked]
  cases s.vars.lookup name with
  | some x => exact ⟨rfl, renames⟩
  | none =>
      refine ⟨renames.next, ?_, ?_, ?_⟩
      · rw [renames.next]
      · simp only [renames.vars, renames.next, renameKeys, List.map_append, List.map_cons,
          List.map_nil]
      · intro pair listed
        rcases List.mem_append.mp listed with before | new
        · exact renames.within pair before
        · obtain rfl := List.mem_singleton.mp new
          exact mem

theorem Renames.fresh (renames : s.Renames r V s') :
    s'.fresh.1 = s.fresh.1 ∧ s.fresh.2.Renames r V s'.fresh.2 :=
  ⟨renames.next, congrArg (· + 1) renames.next, renames.vars, renames.within⟩

theorem Renames.ofArgument (renames : s.Renames r V s') (inj : Set.InjOn r V) {t : Term}
    (inside : ∀ v ∈ t.occurrences, v ∈ V) :
    (s'.ofArgument (t.rename r)).1 = (s.ofArgument t).1 ∧
      (s.ofArgument t).2.Renames r V (s'.ofArgument (t.rename r)).2 := by
  cases t with
  | atom name => exact renames.fresh
  | number value => exact renames.fresh
  | var name => exact renames.ofVariable inj (inside name (List.mem_singleton_self name))
  | compound name args => exact renames.fresh

theorem Renames.ofArguments (renames : s.Renames r V s') (inj : Set.InjOn r V) {ts : List Term}
    (inside : ∀ t ∈ ts, ∀ v ∈ t.occurrences, v ∈ V) :
    (s'.ofArguments (ts.map (Term.rename r))).1 = (s.ofArguments ts).1 ∧
      (s.ofArguments ts).2.Renames r V (s'.ofArguments (ts.map (Term.rename r))).2 := by
  induction ts generalizing s s' with
  | nil => exact ⟨rfl, renames⟩
  | cons t ts ih =>
      obtain ⟨first, rest⟩ := List.forall_mem_cons.mp inside
      obtain ⟨same, next⟩ := renames.ofArgument inj first
      obtain ⟨sames, last⟩ := ih next rest
      exact ⟨congrArg₂ List.cons same sames, last⟩

end Supply

namespace Node

theorem ofTerm_compound (name : String) (args : List Term) (x : Register) (s : Supply) :
    ofTerm (.compound name args) x s =
      (.compound x name (ofTerms args (s.ofArguments args).1 (s.ofArguments args).2).1,
        (ofTerms args (s.ofArguments args).1 (s.ofArguments args).2).2) := rfl

/-- The walk through the renamed term makes the renamed node. -/
theorem ofTerm_rename (inj : Set.InjOn r V) {t : Term} {x : Register}
    (renames : s.Renames r V s') (inside : ∀ v ∈ t.occurrences, v ∈ V) :
    (ofTerm (t.rename r) x s').1 = (ofTerm t x s).1.rename r ∧
      (ofTerm t x s).2.Renames r V (ofTerm (t.rename r) x s').2 := by
  induction t using TermOf.induction generalizing x s s' with
  | atom name => exact ⟨rfl, renames⟩
  | number value => exact ⟨rfl, renames⟩
  | var name => exact ⟨rfl, renames⟩
  | compound name args ih =>
      rw [TermOf.occurrences, Term.occurrencesAll_eq_flatMap] at inside
      have below : ∀ t ∈ args, ∀ v ∈ t.occurrences, v ∈ V := fun t mem v occurs =>
        inside v (List.mem_flatMap.mpr ⟨t, mem, occurs⟩)
      have parts {ts : List Term} (sub : ∀ t ∈ ts, t ∈ args) {xs : List Register}
          {s s' : Supply} (renames : s.Renames r V s') :
          (ofTerms (ts.map (Term.rename r)) xs s').1 = (ofTerms ts xs s).1.map (rename r) ∧
            (ofTerms ts xs s).2.Renames r V (ofTerms (ts.map (Term.rename r)) xs s').2 := by
        induction ts generalizing xs s s' with
        | nil => exact ⟨rfl, renames⟩
        | cons t ts ih' =>
            cases xs with
            | nil => exact ⟨rfl, renames⟩
            | cons x xs =>
                obtain ⟨here, there⟩ := List.forall_mem_cons.mp sub
                obtain ⟨same, next⟩ := ih t here renames (below t here)
                obtain ⟨sames, last⟩ := ih' there next
                exact ⟨congrArg₂ List.cons same sames, last⟩
      obtain ⟨registers, next⟩ := renames.ofArguments inj below
      obtain ⟨nodes, last⟩ := @parts args (fun _ mem => mem) (s.ofArguments args).1 _ _ next
      rw [Term.rename_compound, ofTerm_compound, ofTerm_compound, rename_compound, registers, nodes]
      exact ⟨rfl, last⟩

end Node

namespace Allocation

structure Renames (r : String → String) (V : Set String) (a a' : Allocation) : Prop where
  root : a'.root = a.root.rename r
  registerCount : a'.registerCount = a.registerCount
  vars : a'.vars = renameKeys r a.vars
  within : ∀ pair ∈ a.vars, pair.1 ∈ V

theorem renames_ofTerm (inj : Set.InjOn r V) {t : Term} (inside : ∀ v ∈ t.occurrences, v ∈ V) :
    (ofTerm t).Renames r V (ofTerm (t.rename r)) := by
  cases t with
  | atom name => exact ⟨rfl, rfl, rfl, nofun⟩
  | number value => exact ⟨rfl, rfl, rfl, nofun⟩
  | var name =>
      refine ⟨rfl, rfl, rfl, fun pair mem => ?_⟩
      obtain rfl := List.mem_singleton.mp mem
      exact inside name (List.mem_singleton_self name)
  | compound name args =>
      have start : Supply.start.Renames r V Supply.start := ⟨rfl, rfl, nofun⟩
      obtain ⟨root, last⟩ := Node.ofTerm_rename (x := 0) inj start inside
      rw [Term.rename_compound] at root last
      rw [Term.rename_compound]
      exact ⟨root, last.next, last.vars, last.within⟩

/-- The table has the renamed nodes, in the same order. -/
theorem Renames.nodes {a a' : Allocation} (renames : a.Renames r V a') :
    a'.nodes = a.nodes.map (Node.rename r) := by
  rw [Allocation.nodes, Allocation.nodes, renames.registerCount, renames.root, List.map_filterMap,
    Node.preorder_rename]
  refine List.filterMap_congr fun x _ => ?_
  rw [List.find?_map]
  refine congrArg _ (congrFun (congrArg _ (funext fun node => ?_)) _)
  rw [Function.comp_apply, Node.register_rename]

end Allocation

/-! ## Compiling -/

namespace CompiledTerm

variable {t : Term}

theorem variablesOf_rename (inj : Set.InjOn r V) (inside : ∀ v ∈ t.occurrences, v ∈ V)
    {a a' : Allocation} (renames : a.Renames r V a') :
    variablesOf (t.rename r) a' = renameKeys r (variablesOf t a) := by
  rw [variablesOf, variablesOf, Term.vars_rename inj inside, renameKeys, List.filterMap_map,
    List.map_filterMap]
  refine List.filterMap_congr fun name occurs => ?_
  have mem := inside name (List.mem_eraseDups.mp occurs)
  rw [Function.comp_apply, renames.vars, lookup_renameKeys inj renames.within mem, Option.map_map]
  rfl

/-- Compiling goes the same way if the code does not depend on names of variables. -/
theorem checked_rename (inj : Set.InjOn r {v | v ∈ t.vars}) {code : Allocation → List Instruction}
    (blind : ∀ {a a' : Allocation}, a.Renames r {v | v ∈ t.vars} a' → code a' = code a) :
    checked code (t.rename r) = (checked code t).map (rename r) := by
  have inside : ∀ v ∈ t.occurrences, v ∈ {v | v ∈ t.vars} := fun v occurs =>
    List.mem_eraseDups.mpr occurs
  have renames := Allocation.renames_ofTerm inj inside
  have wide := Term.tooWide?_rename (r := r) t
  cases found : t.tooWide? with
  | some pair =>
      rw [found] at wide
      simp only [checked, wide, found, Except.map]
  | none =>
      rw [found] at wide
      rw [checked_of_fits (Term.tooWide?_eq_none_iff.mp wide),
        checked_of_fits (Term.tooWide?_eq_none_iff.mp found), blind renames,
        variablesOf_rename inj inside renames, renames.registerCount]
      rfl

theorem compileQuery_rename (inj : Set.InjOn r {v | v ∈ t.vars}) :
    compileQuery (t.rename r) = (compileQuery t).map (rename r) :=
  checked_rename inj fun renames => by rw [renames.root, Code.build_rename]

theorem compileProgram_rename (inj : Set.InjOn r {v | v ∈ t.vars}) :
    compileProgram (t.rename r) = (compileProgram t).map (rename r) :=
  checked_rename inj fun renames => by rw [renames.nodes, Code.matchAll_rename]

end CompiledTerm

end

/-! ## Solving -/

/-- The same addresses are noted, under other names. -/
theorem Machine.capture_renameKeys (m : Machine) (vars : List (String × Register)) :
    m.capture (renameKeys r vars) = (m.capture vars).map (renameKeys r) := by
  induction vars with
  | nil => rfl
  | cons pair vars ih =>
      obtain ⟨name, x⟩ := pair
      unfold capture at ih ⊢
      show collect _ ((r name, x) :: renameKeys r vars) = _
      simp only [collect, ih]
      cases m.register x with
      | error e => rfl
      | ok slot =>
          cases collect _ vars with
          | error e => rfl
          | ok captured => rfl

/-- The attempts come to the same machines, and both to yes, both to no, or both to one error. -/
structure Attempt.Agrees (attempt attempt' : Attempt) : Prop where
  built? : attempt'.built? = attempt.built?
  machine : attempt'.machine = attempt.machine
  result : attempt'.result.map Option.isSome = attempt.result.map Option.isSome

namespace CompiledUnit

variable {r' : String → String}

theorem captureQuery_rename (m : Machine) (u : CompiledUnit) :
    m.capture (u.rename r r').query.vars = (m.capture u.query.vars).map (renameKeys r) :=
  m.capture_renameKeys u.query.vars

theorem captureProgram_rename (m : Machine) (u : CompiledUnit) :
    m.capture (u.rename r r').program.vars = (m.capture u.program.vars).map (renameKeys r') :=
  m.capture_renameKeys u.program.vars

/-- Under other names what is noted comes from the same runs. -/
theorem Succeeds.rename {u : CompiledUnit} {fuel : Nat} {limits : Limits} {built m : Machine}
    {queryVars programVars : List (String × Option Address)}
    (succeeds : u.Succeeds fuel limits built m queryVars programVars) :
    (u.rename r r').Succeeds fuel limits built m (renameKeys r queryVars)
      (renameKeys r' programVars) where
  ran := succeeds.ran
  ofQuery := by rw [captureQuery_rename, succeeds.ofQuery, Except.map]
  matched := succeeds.matched
  succeeded := succeeds.succeeded
  ofProgram := by rw [captureProgram_rename, succeeds.ofProgram, Except.map]

/-- Every way in which an attempt ends is the way in which it ends under other names. -/
theorem Ends.rename {u : CompiledUnit} {fuel : Nat} {limits : Limits} {attempt : Attempt}
    (ends : u.Ends fuel limits attempt) :
    ∃ attempt', (u.rename r r').Ends fuel limits attempt' ∧ attempt.Agrees attempt' := by
  have noted {m : Machine} {vars : List (String × Option Address)}
      (ofQuery : m.capture u.query.vars = .ok vars) :
      m.capture (u.rename r r').query.vars = .ok (renameKeys r vars) := by
    rw [captureQuery_rename, ofQuery, Except.map]
  cases ends with
  | queryError ran => exact ⟨_, .queryError ran, rfl, rfl, rfl⟩
  | queryUnfinished ran => exact ⟨_, .queryUnfinished ran, rfl, rfl, rfl⟩
  | queryUnread ran unread =>
      refine ⟨_, .queryUnread ran ?_, rfl, rfl, rfl⟩
      rw [captureQuery_rename, unread, Except.map]
  | programError ran ofQuery matched =>
      exact ⟨_, .programError ran (noted ofQuery) matched, rfl, rfl, rfl⟩
  | programUnfinished ran ofQuery matched =>
      exact ⟨_, .programUnfinished ran (noted ofQuery) matched, rfl, rfl, rfl⟩
  | refused ran ofQuery matched failed =>
      exact ⟨_, .refused ran (noted ofQuery) matched failed, rfl, rfl, rfl⟩
  | programUnread ran ofQuery matched succeeded unread =>
      refine ⟨_, .programUnread ran (noted ofQuery) matched succeeded ?_, rfl, rfl, rfl⟩
      rw [captureProgram_rename, unread, Except.map]
  | answered succeeds made =>
      -- the answers have different names in them, but both can be read back
      have renamed : (u.rename r r').Succeeds fuel limits _ _ _ _ := succeeds.rename
      obtain ⟨answer', made'⟩ := renamed.exists_answer
      exact ⟨_, .answered renamed made', rfl, rfl, rfl⟩

theorem solve_rename (u : CompiledUnit) (fuel : Nat) (limits : Limits) :
    (u.solve fuel limits).Agrees ((u.rename r r').solve fuel limits) := by
  obtain ⟨attempt', ends, agrees⟩ :
      ∃ attempt', (u.rename r r').Ends fuel limits attempt' ∧ _ := (u.solve_ends fuel limits).rename
  rwa [ends.solve_eq]

end CompiledUnit

/-- As long as different variables get different names, compiling gives the same code, listed under
the new names, and an attempt ends in the same way with the same machine. -/
theorem compile_rename {query program : Term} {r r' : String → String}
    (inj : Set.InjOn r {v | v ∈ query.vars}) (inj' : Set.InjOn r' {v | v ∈ program.vars}) :
    CompiledTerm.compileQuery (query.rename r) =
        (CompiledTerm.compileQuery query).map (.rename r) ∧
      CompiledTerm.compileProgram (program.rename r') =
        (CompiledTerm.compileProgram program).map (.rename r') ∧
      CompiledUnit.compile (query.rename r) (program.rename r') =
        (CompiledUnit.compile query program).map (.rename r r') ∧
      ∀ u, CompiledUnit.compile query program = .ok u → ∀ fuel limits,
        (u.solve fuel limits).Agrees ((u.rename r r').solve fuel limits) := by
  have ofQuery := CompiledTerm.compileQuery_rename inj
  have ofProgram := CompiledTerm.compileProgram_rename inj'
  refine ⟨ofQuery, ofProgram, ?_, fun u _ fuel limits => u.solve_rename fuel limits⟩
  rw [CompiledUnit.compile, CompiledUnit.compile, ofQuery, ofProgram]
  cases CompiledTerm.compileQuery query with
  | error e => rfl
  | ok code =>
      cases CompiledTerm.compileProgram program with
      | error e => rfl
      | ok code' => rfl

/-- `p(X, f(Y))` and `p(Y, f(X))`, one with its names swapped and the other with names that the
first does not have. -/
theorem compile_rename_apart :
    let query : Term := .compound "p" [.var "X", .compound "f" [.var "Y"]]
    let program : Term := .compound "p" [.var "Y", .compound "f" [.var "X"]]
    let swap : String → String := fun v => if v = "X" then "Y" else "X"
    let prime : String → String := fun v => v ++ "1"
    let u := CompiledUnit.ofTerms query program
    Set.InjOn swap {v | v ∈ query.vars} ∧ Set.InjOn prime {v | v ∈ program.vars} ∧
      CompiledUnit.compile query program = .ok u ∧
      CompiledUnit.compile (query.rename swap) (program.rename prime) =
        .ok (u.rename swap prime) ∧
      (u.solve 2 .unlimited).Agrees ((u.rename swap prime).solve 2 .unlimited) := by
  intro query program swap prime u
  have inj : Set.InjOn swap {v | v ∈ query.vars} := List.inj_on_of_nodup_map (by decide)
  have inj' : Set.InjOn prime {v | v ∈ program.vars} := List.inj_on_of_nodup_map (by decide)
  have compiled : CompiledUnit.compile query program = .ok u := rfl
  obtain ⟨-, -, same, agrees⟩ := compile_rename inj inj'
  rw [compiled] at same
  exact ⟨inj, inj', compiled, same, agrees u compiled 2 .unlimited⟩

end TermMachine
