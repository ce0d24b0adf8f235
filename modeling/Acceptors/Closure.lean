import Acceptors.Automaton.Construction
import Acceptors.Search.Indexed

/-!
# Epsilon closure

The epsilon closure of a list of states holds the states that epsilon transitions lead to from
them, themselves included.  States of another automaton are left out.
-/

namespace Acceptors

variable {α : Type} [DecidableEq α]

namespace Moves

/-- The known states of a list, each once and in order, and after them what they lead to. -/
def closureList (m : Moves α) (states : List State) : List State :=
  IndexedSearch.reach (m.targets · .epsilon) m.stateCount (states.filter m.contains)

def closure (m : Moves α) (states : List State) : StateSet :=
  StateSet.ofList (m.closureList states)

/-- The states that the members of a set reach by reading one symbol, before any closure. -/
def moved (m : Moves α) (s : StateSet) (a : α) : List State :=
  distinct (s.toList.flatMap fun q => m.targets q (.symbol a))

/-- The states that the members of a set reach by reading one symbol and any epsilons after it. -/
def advance (m : Moves α) (s : StateSet) (a : α) : StateSet :=
  m.closure (m.moved s a)

end Moves

namespace Automaton

def closureList (A : Automaton α) (states : List State) : List State :=
  A.moves.closureList states

def closure (A : Automaton α) (states : List State) : StateSet :=
  A.moves.closure states

theorem closureList_eq_reach (A : Automaton α) (states : List State) :
    A.closureList states =
      Search.reach (A.targets · .epsilon) A.stateCount (states.filter A.contains) := by
  simp only [closureList, Moves.closureList, IndexedSearch.reach_eq, targets_moves]
  rfl

def epsilonClosure (A : Automaton α) (s : StateSet) : Except (Refusal α) StateSet := do
  s.toList.forM A.check
  return A.closure s.toList

def stateClosure (A : Automaton α) (q : State) : Except (Refusal α) StateSet :=
  A.epsilonClosure (.singleton q)

def closed (A : Automaton α) : List (State × StateSet) :=
  let m := A.moves
  A.states.map fun q => (q, m.closure [q])

def closures (A : Automaton α) : List StateSet := A.closed.map (·.2)

def moved (A : Automaton α) (s : StateSet) (a : α) : List State := A.moves.moved s a

theorem moved_eq_eraseDups (A : Automaton α) (s : StateSet) (a : α) :
    A.moved s a = (s.toList.flatMap fun q => A.targets q (.symbol a)).eraseDups := by
  simp only [moved, Moves.moved, distinct_eq_eraseDups, targets_moves]

def advance (A : Automaton α) (s : StateSet) (a : α) : StateSet := A.moves.advance s a

end Automaton

end Acceptors
