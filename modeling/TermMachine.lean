import TermMachine.Main
import TermMachine.Proofs.Heap.Change
import TermMachine.Proofs.Heap.Unification
import TermMachine.Proofs.Machine.State
import TermMachine.Proofs.Machine.Transition
import TermMachine.Proofs.Machine.Invariant
import TermMachine.Proofs.Machine.Safety
import TermMachine.Proofs.Machine.Limits
import TermMachine.Proofs.Allocation
import TermMachine.Proofs.Answer
import TermMachine.Proofs.Clause.Acceptance
import TermMachine.Proofs.Clause.Derivation
import TermMachine.Proofs.Code
import TermMachine.Proofs.Compilation
import TermMachine.Proofs.Heap.Unfolding
import TermMachine.Proofs.Machine.Blocks
import TermMachine.Proofs.Solving.Building
import TermMachine.Proofs.Solving.Contract
import TermMachine.Proofs.Solving.Exact
import TermMachine.Proofs.Solving.MostGeneral
import TermMachine.Proofs.Solving.Names
import TermMachine.Proofs.Solving.Swap
import TermMachine.Proofs.Clause.Greedy
import TermMachine.Proofs.Heap.Acyclic
import TermMachine.Proofs.Heap.Unifier
import TermMachine.Proofs.Heap.Termination
import TermMachine.Proofs.Heap.Symmetry
import TermMachine.Proofs.Heap.Repetition
import TermMachine.Proofs.Machine.Persistence
import TermMachine.Proofs.Machine.Writes
import TermMachine.Proofs.Solving.Matching
import TermMachine.Proofs.Solving.Ground
import TermMachine.Allocation.Walk
import TermMachine.Proofs.Allocation.Table
import TermMachine.Proofs.Allocation.Walk
import TermMachine.Proofs.Heap.Writes
import TermMachine.Proofs.Solving.ReadBack
import TermMachine.Proofs.Code.Discipline
import TermMachine.Proofs.Machine.Composition
import TermMachine.Proofs.Solving.Equality
import TermMachine.Proofs.Solving.Attempt
import TermMachine.Proofs.Solving.Soundness
import TermMachine.Proofs.Solving.Renaming
import TermMachine.Proofs.Numeral.Value
import TermMachine.Proofs.Reader.Progress
import TermMachine.Proofs.Lexer.Quoting
import TermMachine.Proofs.Clause.Brackets
import TermMachine.Proofs.Clause.Independence
import TermMachine.Proofs.Cursor
import TermMachine.Proofs.Lexer.Coverage
