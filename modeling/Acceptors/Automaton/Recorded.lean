import Acceptors.Automaton.InPlace

/-!
# Recorded calls

A building computation makes calls on an automaton under construction and ends with the first call
that is refused.  Every call is entered in a record, the refused one too, with the automaton that it
found, the answer that it was given and the automaton that it left.
-/

namespace Acceptors.Automaton

section Calls

variable {α : Type}

/-- The states that a call names. -/
def Edit.states : Edit α → List State
  | .addState _ => []
  | .setStart q => [q]
  | .setAccepting q _ => [q]
  | .setName q _ => [q]
  | .addTransition p _ q => [p, q]
  | .complete => []

/-- The state that a reply names, a new one or a sink. -/
def Reply.state? : Reply → Option State
  | .done => none
  | .state q => some q
  | .isNew _ => none
  | .sink q => q

/-- The data of a state, which has to be a state of the automaton. -/
def fetch (A : Automaton α) (q : State) : Except (Refusal α) StateData :=
  match A.stateData[q]? with
  | some data => .ok data
  | none => .error (.unknownState q)

end Calls

structure Made (α : Type) where
  before : Automaton α
  edit : Edit α
  answer : Except (Refusal α) Reply
  after : Automaton α

/-- An automaton under construction and the calls made on it, the last one first. -/
structure Site (α : Type) where
  automaton : Automaton α
  made : List (Made α)

abbrev Building (α β : Type) := ExceptT (Refusal α) (StateM (Site α)) β

namespace Building

variable {α β : Type}

/-- The answer, and the site as it is left. -/
def on (x : Building α β) (site : Site α) : Except (Refusal α) β × Site α :=
  x.run.run site

/-- The state that would be added next. -/
def nextState : Building α State := return (← get).automaton.stateCount

variable [DecidableEq α]

def call (e : Edit α) : Building α Reply := do
  let site ← get
  let (answer, B) := site.automaton.perform e
  set (⟨B, ⟨site.automaton, e, answer, B⟩ :: site.made⟩ : Site α)
  ofExcept answer

/-- Makes a call whose answer is of no interest, as long as there is one. -/
def make (e : Edit α) : Building α Unit := do
  let _ ← call e

end Building

end Acceptors.Automaton
