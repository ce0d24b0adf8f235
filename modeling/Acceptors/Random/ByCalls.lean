import Acceptors.Random.Automaton

/-!
# Random automata by calls

`automaton` makes all of its draws before it builds anything.  Here draws and calls take turns: a
state is added after the draw of its flag, and a transition after the draw that asks for it, with
the calls that anyone builds an automaton with.  The first call that is refused ends it all.
-/

namespace Acceptors.Random

/-- A computation that draws, and that ends with the first call that is refused. -/
abbrev Growth (σ α β : Type) := ExceptT (Automaton.Refusal α) (Draw σ) β

/-- A draw among the calls. -/
def Growth.ofDraw {σ α β : Type} (x : Draw σ β) : Growth σ α β := ExceptT.lift x

open Growth

variable {σ α : Type} [Source σ]

/-- Adds states, each of which accepts if a chance comes true. -/
def addStatesByCalls (p : Option Probability) (count : Nat) (A : Automaton α) :
    Growth σ α (Automaton α) :=
  (List.range count).foldlM (fun A _ => return A.addState ⟨← ofDraw (flip p), none⟩) A

variable [DecidableEq α]

def addByCall (A : Automaton α) (t : Transition α) : Growth σ α (Automaton α) := do
  let (_, B) ← ofExcept (A.addTransition t.source t.label t.target)
  return B

/-- Adds a transition if a chance comes true. -/
def tryByCall (p : Option Probability) (A : Automaton α) (t : Transition α) :
    Growth σ α (Automaton α) := do
  if ← ofDraw (flip p) then
    addByCall A t
  else
    return A

def tryAllByCalls (p : Option Probability) (ts : List (Transition α)) (A : Automaton α) :
    Growth σ α (Automaton α) :=
  ts.foldlM (tryByCall p) A

/-- Adds the transitions of a state under one symbol that `trySymbol` would draw. -/
def trySymbolByCalls (o : Options α) (q : State) (A : Automaton α) (a : α) :
    Growth σ α (Automaton α) :=
  if o.kind = .deterministic then
    if h : 0 < o.stateCount then do
      if ← ofDraw (flip o.transition) then
        let r ← ofDraw (below o.stateCount h)
        addByCall A ⟨q, .symbol a, r⟩
      else
        return A
    else
      return A
  else
    tryAllByCalls o.transition ((List.range o.stateCount).map fun r => ⟨q, .symbol a, r⟩) A

def tryStateByCalls (o : Options α) (A : Automaton α) (q : State) : Growth σ α (Automaton α) := do
  let B ← o.alphabet.foldlM (trySymbolByCalls o q) A
  if o.kind.allowsEpsilon then
    tryAllByCalls o.epsilon ((List.range o.stateCount).map fun r => ⟨q, .epsilon, r⟩) B
  else
    return B

def growByCalls (o : Options α) : Growth σ α (Automaton α) := do
  ofDraw (reserve o.stateCount State.width)
  let A ← addStatesByCalls o.accepting o.stateCount (Automaton.empty o.kind o.alphabet)
  if o.stateCount = 0 then
    return A
  else
    let started ← ofExcept (A.setStart 0)
    (List.range o.stateCount).foldlM (tryStateByCalls o) started

def automatonByCalls (o : Options α) : Draw σ (Except (Automaton.Refusal α) (Automaton α)) :=
  (growByCalls o).run

end Acceptors.Random
