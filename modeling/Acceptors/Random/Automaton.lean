import Acceptors.Automaton.Construction
import Acceptors.Capacity
import Acceptors.Random.Source

/-!
# Random automata and words

A random automaton is drawn in two stages.  The draws come first: whether each state accepts, and
for each transition that is tried whether it is there.  The automaton is then built from the
outcome of the draws.
-/

namespace Acceptors.Random

/-- Why a draw is impossible. -/
inductive Invalid where
  | probability
  | capacity
deriving DecidableEq, Repr

/-- A computation that draws from a source. -/
abbrev Draw (σ : Type) := StateT σ (Except Invalid)

section

variable {σ : Type} [Source σ]

/-- Whether a chance comes true. -/
def flip : Option Probability → Draw σ Bool
  | some p => fun s => .ok (Source.flip p s)
  | none => throw .probability

/-- Flips for as many times as asked.  What is no probability fails at the first flip. -/
def flips (p : Option Probability) (count : Nat) : Draw σ (List Bool) :=
  match p with
  | none => if count = 0 then return [] else throw .probability
  | some p => (List.range count).mapM fun _ => flip (some p)

def below (n : Nat) (h : 0 < n) : Draw σ (Fin n) :=
  fun s => .ok (Source.below n h s)

end

/-- Nothing is drawn for more items than there can be room for. -/
def reserve {σ : Type} (count width : Nat) : Draw σ Unit :=
  if Capacity.fits count width then return () else throw .capacity

/-- What a random automaton is to be like.  A missing probability is one that is not a number. -/
structure Options (α : Type) where
  alphabet : List α
  stateCount : Nat
  kind : Kind := .epsilonNondeterministic
  transition : Option Probability := Probability.ofFloat? 0.3
  epsilon : Option Probability := Probability.ofFloat? 0.15
  accepting : Option Probability := Probability.ofFloat? 0.3

/-- What was drawn: the accepting flags of the states, and of each tried transition its fate. -/
structure Outcome (α : Type) where
  accepting : List Bool
  trials : List (Transition α × Bool)
deriving DecidableEq, Repr

section Drawing

variable {σ α : Type} [Source σ]

/-- Tries transitions one after the other. -/
def tryAll (p : Option Probability) (ts : List (Transition α)) :
    Draw σ (List (Transition α × Bool)) :=
  ts.mapM fun t => return (t, ← flip p)

/--
Tries the transitions of a state under one symbol.  A deterministic automaton draws whether there
is one and then its target; other automata try every target.
-/
def trySymbol (o : Options α) (q : State) (a : α) : Draw σ (List (Transition α × Bool)) :=
  if o.kind = .deterministic then
    if h : 0 < o.stateCount then do
      if ← flip o.transition then
        let r ← below o.stateCount h
        return [(⟨q, .symbol a, r⟩, true)]
      else
        return []
    else
      return []
  else
    tryAll o.transition ((List.range o.stateCount).map fun r => ⟨q, .symbol a, r⟩)

def tryEpsilon (o : Options α) (q : State) : Draw σ (List (Transition α × Bool)) :=
  if o.kind.allowsEpsilon then
    tryAll o.epsilon ((List.range o.stateCount).map fun r => ⟨q, .epsilon, r⟩)
  else
    return []

/-- Tries the transitions of a state: the symbols in order, repeated ones again, then epsilon. -/
def tryState (o : Options α) (q : State) : Draw σ (List (Transition α × Bool)) := do
  let symbols ← o.alphabet.mapM (trySymbol o q)
  let epsilons ← tryEpsilon o q
  return symbols.flatten ++ epsilons

def draw (o : Options α) : Draw σ (Outcome α) := do
  reserve o.stateCount State.width
  let accepting ← flips o.accepting o.stateCount
  let trials ← (List.range o.stateCount).mapM (tryState o)
  return ⟨accepting, trials.flatten⟩

end Drawing

/-- The automaton with the transitions that came true.  The first state, if any, is the start. -/
def Outcome.build {α : Type} [DecidableEq α] (o : Options α) (r : Outcome α) :
    Except (Automaton.Refusal α) (Automaton α) := do
  let base := (Automaton.empty o.kind o.alphabet).addStates (r.accepting.map fun b => ⟨b, none⟩)
  if o.stateCount = 0 then
    return base
  else
    let started ← base.setStart 0
    let (_, A) ← started.addTransitions ((r.trials.filter (·.2)).map (·.1))
    return A

def automaton {σ α : Type} [Source σ] [DecidableEq α] (o : Options α) :
    Draw σ (Except (Automaton.Refusal α) (Automaton α)) := do
  return (← draw o).build o

/-- A random word over an alphabet, of a random length up to `maxLength`. -/
def word {σ α : Type} [Source σ] [Letter α] (alphabet : List α) (maxLength : Nat) :
    Draw σ (List α) :=
  if h : 0 < alphabet.length then do
    let length ← below (maxLength + 1) (Nat.succ_pos maxLength)
    reserve length (Letter.width α)
    (List.range length).mapM fun _ => do
      return alphabet[← below alphabet.length h]
  else
    return []

end Acceptors.Random
