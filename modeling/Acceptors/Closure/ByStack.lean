import Acceptors.BoundedSet.Marks
import Acceptors.Closure
import Acceptors.StateSet.Vector

/-!
# Epsilon closure by a stack

Here a list of states is closed in place.  A table of marks tells which states were met, and a stack
holds those of them whose epsilon transitions are still to be followed.  A round takes a state off
the stack and puts there what it leads to for the first time.  Every state put on the stack has set
one of the marks, so with each round the stack and the unset marks become fewer by one in all.
-/

namespace Acceptors

structure Closing where
  marks : Marks State
  /-- The states met so far, in that order. -/
  met : Array State
  /-- The states that wait, the next one first. -/
  stack : List State
deriving DecidableEq, Repr

namespace Closing

/-- The states of a list below `bound` are met first, each of them once, and the stack is a copy. -/
def start (bound : Nat) (states : List State) : Closing :=
  let (known, marks) := (Marks.empty bound).insertAll states
  ⟨marks, known.toArray, known.reverse⟩

def step (next : State → List State) : Closing → Closing
  | ⟨marks, met, []⟩ => ⟨marks, met, []⟩
  | ⟨marks, met, q :: stack⟩ =>
      let (fresh, marks) := marks.insertAll (next q)
      ⟨marks, met ++ fresh, fresh.reverse ++ stack⟩

/-- How many rounds are left at most. -/
def measure (c : Closing) : Nat := c.stack.length + c.marks.room

theorem measure_step (next : State → List State) {c : Closing} (h : ¬ c.stack.isEmpty) :
    (c.step next).measure + 1 = c.measure := by
  obtain ⟨marks, met, stack⟩ := c
  cases stack with
  | nil => simp at h
  | cons q stack =>
      have hroom := marks.room_insertAll (next q)
      simp only [step, measure, List.length_append, List.length_reverse, List.length_cons]
      omega

/-- Goes on until the stack is empty. -/
def run (next : State → List State) (c : Closing) : Closing :=
  if c.stack.isEmpty then c else run next (c.step next)
termination_by c.measure
decreasing_by
  have hmeasure := measure_step next ‹_›
  omega

end Closing

variable {α : Type} [DecidableEq α]

namespace Moves

/-- The known states of a list, each once and in order, and after them what they lead to. -/
def closureByStack (m : Moves α) (states : List State) : List State :=
  ((Closing.start m.stateCount states).run (m.targets · .epsilon)).met.toList

def closureVector (m : Moves α) (states : List State) : StateVector :=
  .ofStates (m.closureByStack states)

end Moves

namespace Automaton

def closureByStack (A : Automaton α) (states : List State) : List State :=
  A.moves.closureByStack states

/-- The closure of every state, in the order of the states. -/
def closureVectors (A : Automaton α) : List StateVector :=
  let m := A.moves
  A.states.map fun q => m.closureVector [q]

theorem closureByStack_eq_run (A : Automaton α) (states : List State) :
    A.closureByStack states =
      ((Closing.start A.stateCount states).run (A.targets · .epsilon)).met.toList := by
  simp only [closureByStack, Moves.closureByStack, targets_moves]
  rfl

end Automaton

end Acceptors
