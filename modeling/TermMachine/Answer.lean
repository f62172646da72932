import TermMachine.Collect
import TermMachine.Machine
import TermMachine.Term

/-!
# Answers

After a successful run the variables of the query and the program have values in the heap, which an
answer gives as terms. Unbound variables that are one cell get one name, the first variable that
stands for it, or a name made of the address if there is none. A structure that contains itself is
cut where it would repeat: there the name of the structure stands, given in the same way.
-/

namespace TermMachine

/-- What makes two places in the heap the same: the variable, or the first argument cell of the
structure. Several cells can mark one structure, so they do not identify it. -/
inductive Identity where
  | unbound (address : Address)
  | compound (first : Address)
deriving Repr, DecidableEq

namespace Identity

def of (address : Address) : Value → Identity
  | .unbound => .unbound address
  | .compound _ first => .compound first

/-- The name for what no variable stands for. -/
def text : Identity → String
  | .unbound address => "_G" ++ toString address
  | .compound first => "_G" ++ toString first

end Identity

/-- The names of identities, each with the first variable that stands for it. -/
abbrev Naming := List (Identity × String)

namespace Naming

def name (names : Naming) (identity : Identity) : String :=
  (names.lookup identity).getD identity.text

def add (names : Naming) (identity : Identity) (name : String) : Naming :=
  match names.lookup identity with
  | some _ => names
  | none => names ++ [(identity, name)]

end Naming

inductive ReifyError where
  | memory (e : MemoryError)
  | tooDeep
deriving Repr, DecidableEq

def ReifyError.message : ReifyError → String
  | .memory e => e.message
  | .tooDeep => "the term is nested too deeply"

namespace Heap

/-- The term at an address, with structures nested less than `depth` deep. `parents` are the
structures that it is inside of. -/
def reifyWithin (h : Heap) (names : Naming) :
    Nat → List Identity → Address → Except ReifyError Term
  | 0, _, _ => .error .tooDeep
  | depth + 1, parents, a =>
      match h.inspect a with
      | .error e => .error (.memory e)
      | .ok (a, .unbound) => .ok (.var (names.name (.unbound a)))
      | .ok (_, .compound s first) =>
          if parents.contains (.compound first) then .ok (.var (names.name (.compound first)))
          else if s.arity = 0 then .ok (.atom s.name)
          else
            match collect (h.reifyWithin names depth (.compound first :: parents))
                (Arguments.addresses ⟨first, s.arity⟩) with
            | .error e => .error e
            | .ok args => .ok (.compound s.name args)

/-- The term at an address. Inside each other there are at most as many different structures as the
heap has cells. -/
def reify (h : Heap) (names : Naming) (a : Address) : Except ReifyError Term :=
  h.reifyWithin names (h.top + 2) [] a

end Heap

structure Answer where
  bindings : List (String × Term)
deriving Repr, DecidableEq

namespace Answer

/-- The first pair for each name. -/
def firstOfEach {α : Type} : List (String × α) → List (String × α)
  | [] => []
  | pair :: pairs => pair :: (firstOfEach pairs).filter fun other => other.1 != pair.1

/-- Names what the variables stand for, where they stand for anything. -/
def nameAll (h : Heap) (names : Naming) :
    List (String × Option Address) → Except ReifyError Naming
  | [] => .ok names
  | (_, none) :: rest => nameAll h names rest
  | (name, some a) :: rest =>
      match h.inspect a with
      | .error e => .error (.memory e)
      | .ok (a, v) => nameAll h (names.add (.of a v) name) rest

/-- The value of a variable. A variable that no register was ever written for stands for itself. -/
def value (h : Heap) (names : Naming) :
    String × Option Address → Except ReifyError (String × Term)
  | (name, none) => .ok (name, .var name)
  | (name, some a) =>
      match h.reify names a with
      | .error e => .error e
      | .ok t => .ok (name, t)

/-- The answer for variables and the addresses they were found at. A variable of the program that
has the name of one of the query is not shown. -/
def ofVariables (h : Heap) (vars : List (String × Option Address)) :
    Except ReifyError Answer :=
  let vars := firstOfEach vars
  match nameAll h [] vars with
  | .error e => .error e
  | .ok names =>
      match collect (value h names) vars with
      | .error e => .error e
      | .ok bindings => .ok ⟨bindings⟩

/-- The bindings that say something: those that do not bind a variable to itself. -/
def interesting (answer : Answer) : List (String × Term) :=
  answer.bindings.filter fun (name, t) => t != .var name

def bindingText : String × Term → String
  | (name, t) => name ++ " = " ++ t.render

end Answer

end TermMachine
