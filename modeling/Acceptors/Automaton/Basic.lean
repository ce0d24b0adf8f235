import Acceptors.Automaton.Moves

/-!
# Finite automata

An automaton has a declared kind, an alphabet, states with optional names, and labelled
transitions.  The transitions are a relation: no triple is stored twice.  They are kept in the
order of insertion, the most recent first, because that is the order in which the targets of a
state are listed.

The declared kind only decides whether epsilon transitions may be added.  Whether the table is in
fact deterministic is a property of the table, `IsDeterministic`.
-/

namespace Acceptors

inductive Kind where
  | deterministic
  | nondeterministic
  | epsilonNondeterministic
deriving DecidableEq, Repr

namespace Kind

def allowsEpsilon : Kind → Bool
  | epsilonNondeterministic => true
  | _ => false

def text : Kind → String
  | deterministic => "DFA"
  | nondeterministic => "NFA"
  | epsilonNondeterministic => "ε-NFA"

def name : Kind → String
  | deterministic => "Deterministic"
  | nondeterministic => "Nondeterministic"
  | epsilonNondeterministic => "EpsilonNondeterministic"

def ofName? (s : String) : Option Kind :=
  [deterministic, nondeterministic, epsilonNondeterministic].find? fun kind => kind.name == s

end Kind

/-- What is stored for a state besides its position. -/
structure StateData where
  accepting : Bool
  name : Option String
deriving DecidableEq, Repr

structure Automaton (α : Type) where
  kind : Kind
  alphabet : List α
  start : Option State
  stateData : Array StateData
  /-- The transitions, the most recently added one first. -/
  recent : List (Transition α)
deriving DecidableEq, Repr

namespace Automaton

variable {α : Type}

/-- An automaton without states.  Of a repeated symbol the first occurrence is kept. -/
def empty [DecidableEq α] (kind : Kind) (alphabet : List α) : Automaton α :=
  { kind, alphabet := alphabet.eraseDups, start := none, stateData := #[], recent := [] }

def stateCount (A : Automaton α) : Nat := A.stateData.size

def states (A : Automaton α) : List State := List.range A.stateCount

def contains (A : Automaton α) (q : State) : Bool := decide (q < A.stateCount)

def transitions (A : Automaton α) : List (Transition α) := A.recent.reverse

def transitionCount (A : Automaton α) : Nat := A.recent.length

/-- The accepting flag; a state of another automaton has none. -/
def isAcceptingState (A : Automaton α) (q : State) : Bool :=
  match A.stateData[q]? with
  | some data => data.accepting
  | none => false

def acceptingStates (A : Automaton α) : StateSet :=
  StateSet.ofList (A.states.filter A.isAcceptingState)

def containsAccepting (A : Automaton α) (s : StateSet) : Bool :=
  s.toList.any A.isAcceptingState

def name? (A : Automaton α) (q : State) : Option String :=
  A.stateData[q]?.bind StateData.name

/-- The name under which a state is shown. -/
def stateName (A : Automaton α) (q : State) : String :=
  (A.name? q).getD q.text

def stateNamed? (A : Automaton α) (name : String) : Option State :=
  A.states.find? fun q => A.name? q == some name

/-- A set of states by the names under which they are shown. -/
def describe (A : Automaton α) (s : StateSet) : String :=
  StateSet.braced (s.toList.map A.stateName)

def moves (A : Automaton α) : Moves α := .ofRecent A.stateCount A.recent

section Table

variable [DecidableEq α]

def hasSymbol (A : Automaton α) (a : α) : Bool := decide (a ∈ A.alphabet)

def targets (A : Automaton α) (p : State) (label : Label α) : List State :=
  A.recent.filterMap fun t =>
    if t.source = p ∧ t.label = label then some t.target else none

@[simp] theorem targets_moves (A : Automaton α) (p : State) (label : Label α) :
    A.moves.targets p label = A.targets p label :=
  Moves.targets_ofRecent A.stateCount A.recent p label

def labelsFrom (A : Automaton α) (p : State) : List (Label α) :=
  A.recent.filterMap fun t => if t.source = p then some t.label else none

def IsEpsilonFree (A : Automaton α) : Prop :=
  ∀ t ∈ A.recent, t.label.isEpsilon = false

instance (A : Automaton α) : Decidable A.IsEpsilonFree :=
  inferInstanceAs (Decidable (∀ t ∈ A.recent, t.label.isEpsilon = false))

/-- No state has an epsilon transition or two transitions under one symbol. -/
def IsDeterministic (A : Automaton α) : Prop :=
  ∀ p ∈ A.states, Label.epsilon ∉ A.labelsFrom p ∧ (A.labelsFrom p).Nodup

instance (A : Automaton α) : Decidable A.IsDeterministic :=
  inferInstanceAs
    (Decidable (∀ p ∈ A.states, Label.epsilon ∉ A.labelsFrom p ∧ (A.labelsFrom p).Nodup))

def gaps (A : Automaton α) : List (State × α) :=
  let m := A.moves
  A.states.flatMap fun p =>
    (A.alphabet.filter fun a => (m.targets p (.symbol a)).isEmpty).map (p, ·)

def IsComplete (A : Automaton α) : Prop := A.gaps = []

instance (A : Automaton α) : Decidable A.IsComplete :=
  inferInstanceAs (Decidable (A.gaps = []))

end Table

end Automaton

end Acceptors
