import Acceptors.Closure
import Acceptors.Log.Group
import Acceptors.Trace

/-!
# Removal of epsilon transitions

The states are kept.  A state moves under a symbol wherever some state of its closure moves, and it
accepts if its closure holds an accepting state.
-/

namespace Acceptors.Automaton

variable {α : Type} [DecidableEq α]

/-- The moves of closed states: by state, then by symbol, then by target. -/
def closedMoves (A : Automaton α) (closed : List (State × StateSet)) : List (Transition α) :=
  let m := A.moves
  closed.flatMap fun (q, s) =>
    A.alphabet.flatMap fun a =>
      (StateSet.ofList (m.moved s a)).toList.map fun r => ⟨q, .symbol a, r⟩

/-- The states with their names, accepting if their closure is. -/
def closedStates (A : Automaton α) (closed : List (State × StateSet)) : List StateData :=
  closed.map fun (q, s) => ⟨A.containsAccepting s, A.name? q⟩

/--
An automaton over the same states that reads the same words without epsilon transitions.  All of its
transitions are between its states and under its symbols, and none is listed twice.
-/
def withoutEpsilon (A : Automaton α) : Except (Refusal α) (Automaton α) := do
  let start ← A.initial
  let closed := A.closed
  return {
    kind := .nondeterministic
    alphabet := A.alphabet
    start := some start
    stateData := (A.closedStates closed).toArray
    recent := (A.closedMoves closed).reverse }

/-- What the removal reports, from its source and its result. -/
def removalReports (source result : Automaton α) : List Report :=
  [.span "eliminate_epsilons" .debug
    [("states", toString source.stateCount),
      ("transitions", toString source.transitionCount)],
   .event "removed epsilon transitions" .debug
    [("transitions", toString result.transitionCount),
      ("accepting", toString result.acceptingStates.size)]]

/-- What the removal logs, from its source and its result. -/
def removalSummary (source result : Automaton α) : Log.Group :=
  ⟨"Epsilon Elimination",
    [("states", toString result.stateCount),
     ("source.transitions", toString source.transitionCount),
     ("nfa.transitions", toString result.transitionCount)]⟩

end Acceptors.Automaton
