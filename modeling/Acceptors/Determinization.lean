import Acceptors.Closure
import Acceptors.Log.Group
import Acceptors.Positions
import Acceptors.Trace

/-!
# Determinization

Every state of the result stands for a set of source states, its label.  The labels are found
breadth first from the closure of the start state, the symbols taken in the order of the alphabet.
The empty set is no label, so that a move to it is a missing transition; completion adds it as the
label of a sink.
-/

namespace Acceptors

inductive Naming where
  | numbered
  | sourceSets
deriving DecidableEq, Repr

namespace Naming

def text : Naming → String
  | numbered => "Numbered"
  | sourceSets => "SourceSets"

def ofText? (s : String) : Option Naming :=
  [numbered, sourceSets].find? fun naming => naming.text == s

def name {α : Type} (naming : Naming) (A : Automaton α) (q : State) (label : StateSet) : String :=
  match naming with
  | numbered => "s" ++ toString q
  | sourceSets => A.describe label

end Naming

/-- A deterministic automaton and, for each of its states, the set of source states it means. -/
structure Determinized (α : Type) where
  automaton : Automaton α
  labels : List StateSet
deriving DecidableEq

namespace Automaton

variable {α : Type} [DecidableEq α]

/-- The sets that a set moves to under the symbols of the alphabet, the empty set left out. -/
def successors (A : Automaton α) (m : Moves α) (s : StateSet) : List StateSet :=
  (A.alphabet.map (m.advance s)).filter fun t => !t.isEmpty

/-- The sets reached from the closure of a start state, in the order of discovery. -/
def reachedSets (A : Automaton α) (start : State) : List StateSet :=
  let m := A.moves
  IndexedSearch.reach (A.successors m) (Nat.pow 2 A.stateCount) [m.closure [start]]

theorem reachedSets_eq_reach (A : Automaton α) (start : State) :
    A.reachedSets start =
      Search.reach (A.successors A.moves) (Nat.pow 2 A.stateCount) [A.closure [start]] :=
  IndexedSearch.reach_eq _ _ _

/-- The moves between labels: by source, then by symbol. -/
def labelMoves (A : Automaton α) (labels : List StateSet) : List (Transition α) :=
  let m := A.moves
  let table := positions labels
  labels.zipIdx.flatMap fun (s, p) =>
    A.alphabet.filterMap fun a =>
      table[m.advance s a]?.map fun q => ⟨p, .symbol a, q⟩

theorem labelMoves_eq_flatMap (A : Automaton α) (labels : List StateSet) :
    A.labelMoves labels = labels.zipIdx.flatMap fun (s, p) =>
      A.alphabet.filterMap fun a =>
        (labels.idxOf? (A.advance s a)).map fun q => ⟨p, .symbol a, q⟩ := by
  simp only [labelMoves, getElem?_positions]
  rfl

def labelStates (A : Automaton α) (naming : Naming) (labels : List StateSet) : List StateData :=
  labels.zipIdx.map fun (s, p) => ⟨A.containsAccepting s, some (naming.name A p s)⟩

/--
The determinization without a sink.  All moves are between labels and under symbols of the alphabet,
and no label has two under one symbol.
-/
def partialDeterminize (A : Automaton α) (naming : Naming) :
    Except (Refusal α) (Determinized α) := do
  let start ← A.initial
  let labels := A.reachedSets start
  let dfa : Automaton α := {
    kind := .deterministic
    alphabet := A.alphabet
    start := some 0
    stateData := (A.labelStates naming labels).toArray
    recent := (A.labelMoves labels).reverse }
  return ⟨dfa, labels⟩

/-- Adds the sink, if one is needed, and names it like the other states. -/
def withSink (A : Automaton α) (naming : Naming) (d : Determinized α) :
    Except (Refusal α) (Determinized α) :=
  match d.automaton.complete with
  | (none, _) => .ok d
  | (some sink, dfa) => do
      let named ← dfa.setName sink (naming.name A sink ∅)
      return ⟨named, d.labels ++ [∅]⟩

def determinize (A : Automaton α) (complete : Bool) (naming : Naming) :
    Except (Refusal α) (Determinized α) := do
  let d ← A.partialDeterminize naming
  if complete then A.withSink naming d else return d

/-- Determinization by default: numbered states and no sink. -/
def toDFA (A : Automaton α) : Except (Refusal α) (Automaton α) := do
  return (← A.determinize false .numbered).automaton

end Automaton

namespace Determinized

variable {α : Type}

/-- The source states that a state stands for; the sink stands for the empty set. -/
def label? (d : Determinized α) (q : State) : Option StateSet := d.labels[q]?

def stateFor? (d : Determinized α) (s : StateSet) : Option State := d.labels.idxOf? s

def sink? (d : Determinized α) : Option State := d.stateFor? ∅

def labelled (d : Determinized α) : List (State × StateSet) :=
  d.labels.zipIdx.map fun (s, q) => (q, s)

/-- The report of one state found on the way; the start and the sink are not reported. -/
def discovery? (source : Automaton α) (q : State) (s : StateSet) : Option Report :=
  if q = 0 ∨ s.isEmpty then none
  else some (.event "discovered derived state" .debug
    [("state", q.text), ("set", source.describe s)])

/-- What the determinization reports, from its source and its result. -/
def reports (d : Determinized α) (source : Automaton α) : List Report :=
  [.span "subset_construction" .debug
    [("source_states", toString source.stateCount),
      ("alphabet", toString source.alphabet.length)]] ++
  (d.labelled.filterMap fun (q, s) => discovery? source q s) ++
  [.event "determinized" .debug
    [("states", toString d.automaton.stateCount),
      ("transitions", toString d.automaton.transitionCount)]]

/-- What the determinization logs, from its source and its result. -/
def summary [DecidableEq α] (d : Determinized α) (source : Automaton α) : Log.Group :=
  ⟨"Subset Construction",
    [("source.states", toString source.stateCount),
     ("source.transitions", toString source.transitionCount),
     ("dfa.states", toString d.automaton.stateCount),
     ("dfa.transitions", toString d.automaton.transitionCount),
     ("dfa.complete", toString (decide d.automaton.IsComplete))]⟩

end Determinized

end Acceptors
