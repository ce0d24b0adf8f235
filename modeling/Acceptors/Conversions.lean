import Acceptors.Automaton.Recorded
import Acceptors.Determinization
import Acceptors.EpsilonRemoval

/-!
# Conversions by calls

`withoutEpsilon` and `determinize` write the tables of their results at once.  Here the same results
are built state by state and transition by transition, with the calls that anyone builds an
automaton with.  These check every state and every label that they are given, and a conversion ends
with the first call that is refused.
-/

namespace Acceptors

namespace Automaton

open Building

variable {α : Type} [DecidableEq α]

/-! ## Removal of epsilon transitions -/

/-- Begun on an automaton without states over the same alphabet. -/
def removeByCalls (A : Automaton α) : Building α Unit := do
  let start ← ofExcept A.initial
  A.closed.forM fun (q, s) => do
    let data ← ofExcept (A.fetch q)
    make (.addState ⟨A.containsAccepting s, data.name⟩)
  make (.setStart start)
  A.closed.forM fun (q, s) =>
    A.alphabet.forM fun a =>
      (StateSet.ofList (A.moved s a)).toList.forM fun r =>
        make (.addTransition q (.symbol a) r)

end Automaton

/-! ## Determinization -/

/-- The labels found so far, a table of their states, and the states that are to be expanded. -/
structure Frontier where
  labels : List StateSet
  stateOf : Std.TreeMap StateSet State
  waiting : List (StateSet × State)

namespace Frontier

def empty : Frontier := ⟨[], ∅, []⟩

def add (f : Frontier) (s : StateSet) (q : State) : Frontier :=
  ⟨f.labels ++ [s], f.stateOf.insert s q, f.waiting ++ [(s, q)]⟩

end Frontier

namespace Automaton

open Building

variable {α : Type} [DecidableEq α]

/-- Adds the state of a label and says which one it is. -/
def addDerived (A : Automaton α) (naming : Naming) (s : StateSet) : Building α State := do
  let next ← nextState
  let reply ← call (.addState ⟨A.containsAccepting s, some (naming.name A next s)⟩)
  return reply.state?.getD next

/-- Adds the move of one label under one symbol, and the state that it leads to if that is new. -/
def expandUnder (A : Automaton α) (naming : Naming) (s : StateSet) (p : State) (f : Frontier)
    (a : α) : Building α Frontier := do
  let t := A.advance s a
  if t.isEmpty then
    return f
  match f.stateOf[t]? with
  | some q =>
      make (.addTransition p (.symbol a) q)
      return f
  | none =>
      let q ← A.addDerived naming t
      make (.addTransition p (.symbol a) q)
      return f.add t q

/-- Expands the waiting states in their order, up to a limit. -/
def explore (A : Automaton α) (naming : Naming) : Nat → Frontier → Building α Frontier
  | 0, f => return f
  | limit + 1, f =>
      match f.waiting with
      | [] => return f
      | (s, p) :: waiting => do
          let g ← A.alphabet.foldlM (A.expandUnder naming s p) { f with waiting }
          A.explore naming limit g

/-- Adds the sink, if one is needed, and names it like the other states. -/
def closeByCalls (A : Automaton α) (naming : Naming) (f : Frontier) : Building α Frontier := do
  let reply ← call .complete
  match reply.state? with
  | none => return f
  | some sink =>
      make (.setName sink (naming.name A sink ∅))
      return { f with labels := f.labels ++ [∅] }

/-- Begun on an automaton without states over the same alphabet. -/
def deriveByCalls (A : Automaton α) (complete : Bool) (naming : Naming) : Building α Frontier := do
  let start ← ofExcept A.initial
  let s := A.closure [start]
  let q ← A.addDerived naming s
  make (.setStart q)
  let f ← A.explore naming (Nat.pow 2 A.stateCount) (Frontier.empty.add s q)
  if complete then A.closeByCalls naming f else return f

end Automaton

end Acceptors
