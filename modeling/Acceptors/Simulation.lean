import Acceptors.Closure
import Acceptors.Trace

/-!
# Simulation

A simulation holds the active states, which are closed under epsilon transitions.  The same rules
therefore run every kind of automaton.  A symbol without transitions, such as one outside the
alphabet, leaves no state active, and an automaton without active states stays dead.
-/

namespace Acceptors

namespace Moves

variable {α : Type} [DecidableEq α]

/-- The active states after a word, read from a closed set; a dead run reads no further. -/
def runFrom (m : Moves α) (active : StateSet) : List α → StateSet
  | [] => active
  | a :: word => if active.isEmpty then active else m.runFrom (m.advance active a) word

theorem advance_of_isEmpty (m : Moves α) (s : StateSet) (a : α) (h : s.isEmpty) :
    m.advance s a = s := by
  obtain ⟨states, _⟩ := s
  cases List.isEmpty_iff.1 h
  cases hn : m.stateCount <;>
    simp [advance, moved, closure, closureList, IndexedSearch.reach_eq, distinct_eq_eraseDups,
      Search.reach, Search.start, Search.run, hn, StateSet.ofList] <;> rfl

theorem runFrom_eq_foldl (m : Moves α) (s : StateSet) (word : List α) :
    m.runFrom s word = word.foldl m.advance s := by
  induction word generalizing s with
  | nil => rfl
  | cons a word ih =>
      simp only [runFrom, List.foldl_cons]
      split
      · next h =>
          rw [m.advance_of_isEmpty s a h, ← ih]
          cases word <;> simp [runFrom, h]
      · exact ih _

end Moves

namespace Automaton

variable {α : Type} [DecidableEq α]

def runFrom (A : Automaton α) (active : StateSet) (word : List α) : StateSet :=
  A.moves.runFrom active word

theorem runFrom_eq_foldl (A : Automaton α) (active : StateSet) (word : List α) :
    A.runFrom active word = word.foldl A.advance active :=
  A.moves.runFrom_eq_foldl active word

def run (A : Automaton α) (word : List α) : Except (Refusal α) StateSet := do
  let start ← A.initial
  return A.runFrom (A.closure [start]) word

def accepts (A : Automaton α) (word : List α) : Except (Refusal α) Bool := do
  return A.containsAccepting (← A.run word)

/-- One step on a list of states: all that their symbol transitions find, and what epsilons add. -/
def advanceList (A : Automaton α) (states : List State) (a : α) : List State :=
  let m := A.moves
  m.closureList (states.flatMap fun q => m.targets q (.symbol a))

/-- The strict check of a word: its symbols belong to the alphabet and there is a start state. -/
def checkWord (A : Automaton α) (word : List α) : Except (Refusal α) Unit := do
  word.forM fun a => A.checkLabel (.symbol a)
  discard A.initial

end Automaton

/-- One performed step: the symbol read, and how many states are active after it. -/
structure Step (α : Type) where
  symbol : α
  active : Nat
deriving DecidableEq, Repr

def Step.report {α : Type} [Letter α] (s : Step α) : Report :=
  .event "simulation step" .trace
    [("symbol", Letter.quote s.symbol), ("active", toString s.active)]

/--
A run in progress: the active states in the order in which they were found, and the steps performed
so far, the last one first.
-/
structure Simulation (α : Type) where
  found : List State
  performed : List (Step α)
deriving DecidableEq

namespace Simulation

variable {α : Type} [DecidableEq α]

def start (A : Automaton α) : Except (Automaton.Refusal α) (Simulation α) := do
  let start ← A.initial
  return ⟨A.closureList [start], []⟩

/-- The active states as a set. -/
def active (s : Simulation α) : StateSet := .ofList s.found

def isDead (s : Simulation α) : Bool := s.found.isEmpty

def isAccepting (s : Simulation α) (A : Automaton α) : Bool := s.found.any A.isAcceptingState

def step (s : Simulation α) (A : Automaton α) (a : α) : Simulation α :=
  let found := A.advanceList s.found a
  ⟨found, ⟨a, found.length⟩ :: s.performed⟩

/-- Reads a word and stops early once no state is active. -/
def read (s : Simulation α) (A : Automaton α) : List α → Simulation α
  | [] => s
  | a :: word => if s.isDead then s else (s.step A a).read A word

/-- A call that feeds a simulation. -/
inductive Call (α : Type) where
  | step (a : α)
  | read (word : List α)
deriving DecidableEq, Repr

def Call.symbols : Call α → List α
  | step a => [a]
  | read word => word

def call (s : Simulation α) (A : Automaton α) : Call α → Simulation α
  | .step a => s.step A a
  | .read word => s.read A word

/-- Makes calls one after the other, those on a dead simulation among them. -/
def callAll (s : Simulation α) (A : Automaton α) (calls : List (Call α)) : Simulation α :=
  calls.foldl (fun s c => s.call A c) s

def reports [Letter α] (s : Simulation α) : List Report :=
  s.performed.reverse.map Step.report

end Simulation

end Acceptors
