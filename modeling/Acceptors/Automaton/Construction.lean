import Acceptors.Automaton.Basic

/-!
# Construction of automata

The calls that build an automaton check their arguments before they change anything: a state must
exist, a symbol must belong to the alphabet, and an epsilon transition must suit the kind.
`Edit` makes the calls data, so that a history of calls can be run and reasoned about.
-/

namespace Acceptors

namespace Automaton

inductive Refusal (α : Type) where
  | unknownState (q : State)
  | epsilonForbidden (kind : Kind)
  | foreignSymbol (a : α)
  | noStartState
deriving DecidableEq, Repr

namespace Refusal

def message {α : Type} [Letter α] : Refusal α → String
  | unknownState q => "state " ++ q.text ++ " does not belong to this automaton"
  | epsilonForbidden kind =>
      "invalid symbol: epsilon transitions are not allowed in a " ++ kind.text
  | foreignSymbol a => "invalid symbol: " ++ Letter.quote a ++ " is not part of the alphabet"
  | noStartState => "automaton has no start state"

end Refusal

variable {α : Type}

def check (A : Automaton α) (q : State) : Except (Refusal α) Unit :=
  if A.contains q then .ok () else .error (.unknownState q)

def initial (A : Automaton α) : Except (Refusal α) State :=
  match A.start with
  | some q => .ok q
  | none => .error .noStartState

def isAccepting (A : Automaton α) (q : State) : Except (Refusal α) Bool := do
  A.check q
  return A.isAcceptingState q

def name (A : Automaton α) (q : State) : Except (Refusal α) (Option String) := do
  A.check q
  return A.name? q

def addState (A : Automaton α) (data : StateData) : Automaton α :=
  { A with stateData := A.stateData.push data }

def addStates (A : Automaton α) (data : List StateData) : Automaton α :=
  data.foldl addState A

def setStart (A : Automaton α) (q : State) : Except (Refusal α) (Automaton α) := do
  A.check q
  return { A with start := some q }

def modifyState (A : Automaton α) (q : State) (f : StateData → StateData) :
    Except (Refusal α) (Automaton α) := do
  A.check q
  return { A with stateData := A.stateData.modify q f }

def setAccepting (A : Automaton α) (q : State) (accepting : Bool) :
    Except (Refusal α) (Automaton α) :=
  A.modifyState q fun data => { data with accepting }

def setName (A : Automaton α) (q : State) (name : String) :
    Except (Refusal α) (Automaton α) :=
  A.modifyState q fun data => { data with name := some name }

variable [DecidableEq α]

def checkLabel (A : Automaton α) : Label α → Except (Refusal α) Unit
  | .epsilon => if A.kind.allowsEpsilon then .ok () else .error (.epsilonForbidden A.kind)
  | .symbol a => if A.hasSymbol a then .ok () else .error (.foreignSymbol a)

def addTransition (A : Automaton α) (p : State) (label : Label α) (q : State) :
    Except (Refusal α) (Bool × Automaton α) := do
  A.check p
  A.check q
  A.checkLabel label
  if ⟨p, label, q⟩ ∈ A.recent then
    return (false, A)
  else
    return (true, { A with recent := ⟨p, label, q⟩ :: A.recent })

/--
Adds transitions one after the other and says of each whether it was new.  The table holds the
transitions of the automaton by source, so that only those with the same source are looked through.
-/
def addTransitionsTo (A : Automaton α) (table : Array (List (Label α × State))) :
    List (Transition α) → Except (Refusal α) (List Bool × Automaton α)
  | [] => .ok ([], A)
  | t :: ts => do
      A.check t.source
      A.check t.target
      A.checkLabel t.label
      if (t.label, t.target) ∈ table[t.source]?.getD [] then
        let (areNew, B) ← A.addTransitionsTo table ts
        return (false :: areNew, B)
      else
        let (areNew, B) ←
          { A with recent := t :: A.recent }.addTransitionsTo (Moves.record t table) ts
        return (true :: areNew, B)

def addTransitions (A : Automaton α) (ts : List (Transition α)) :
    Except (Refusal α) (List Bool × Automaton α) :=
  A.addTransitionsTo (Moves.bySource A.stateCount A.recent) ts

theorem addTransitions_cons (A : Automaton α) (t : Transition α) (ts : List (Transition α)) :
    A.addTransitions (t :: ts) = do
      let (isNew, B) ← A.addTransition t.source t.label t.target
      let (areNew, C) ← B.addTransitions ts
      return (isNew :: areNew, C) := by
  unfold addTransitions addTransition
  rw [addTransitionsTo]
  unfold check
  by_cases hp : A.contains t.source
  · have hm := @Moves.mem_getD_bySource α A.stateCount A.recent t (of_decide_eq_true hp)
    simp only [hp, hm]
    cases (if A.contains t.target then Except.ok () else Except.error (.unknownState t.target) :
      Except (Refusal α) Unit) with
    | error _ => rfl
    | ok _ =>
        cases A.checkLabel t.label with
        | error _ => rfl
        | ok _ => by_cases ht : t ∈ A.recent <;> simp only [ht] <;> rfl
  · simp only [hp]
    rfl

/--
Closes the gaps of the table.  If there are any, a non-accepting sink is added, every gap is routed
to it in the order of `gaps`, and the sink loops on every symbol.
-/
def complete (A : Automaton α) : Option State × Automaton α :=
  match A.gaps with
  | [] => (none, A)
  | gaps =>
      let sink := A.stateCount
      let routed := gaps.map fun (p, a) => ⟨p, .symbol a, sink⟩
      let loops := A.alphabet.map fun a => ⟨sink, .symbol a, sink⟩
      let B := A.addState ⟨false, none⟩
      (some sink, { B with recent := (routed ++ loops).reverse ++ B.recent })

/-- A call that changes an automaton. -/
inductive Edit (α : Type) where
  | addState (data : StateData)
  | setStart (q : State)
  | setAccepting (q : State) (accepting : Bool)
  | setName (q : State) (name : String)
  | addTransition (p : State) (label : Label α) (q : State)
  | complete
deriving DecidableEq, Repr

inductive Reply where
  | done
  | state (q : State)
  | isNew (added : Bool)
  | sink (q : Option State)
deriving DecidableEq, Repr

/-- Runs one call: its answer and the changed automaton, or the refusal. -/
def edit (A : Automaton α) : Edit α → Except (Refusal α) (Reply × Automaton α)
  | .addState data => .ok (.state A.stateCount, A.addState data)
  | .setStart q => do return (.done, ← A.setStart q)
  | .setAccepting q accepting => do return (.done, ← A.setAccepting q accepting)
  | .setName q name => do return (.done, ← A.setName q name)
  | .addTransition p label q => do
      let (added, B) ← A.addTransition p label q
      return (.isNew added, B)
  | .complete => .ok (.sink A.complete.1, A.complete.2)

/-- Runs one call and goes on with the automaton as it was if the call is refused. -/
def editOrKeep (A : Automaton α) (e : Edit α) : Except (Refusal α) Reply × Automaton α :=
  match A.edit e with
  | .ok (reply, B) => (.ok reply, B)
  | .error refusal => (.error refusal, A)

def editAll (A : Automaton α) : List (Edit α) → Except (Refusal α) (Automaton α)
  | [] => .ok A
  | e :: es => do
      let (_, B) ← A.edit e
      B.editAll es

end Automaton

end Acceptors
