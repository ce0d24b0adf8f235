import Acceptors.Automaton.Construction

/-!
# Calls in place

Here a call is a sequence of checks and writes on one automaton, and no write is taken back.  What
a call wrote before it is refused therefore stays written.  By `perform_eq_editOrKeep` the calls
still do what `edit` says, because each of them makes all of its checks before its first write.
-/

namespace Acceptors.Automaton

/-- A computation that reads and writes an automaton in place and may be refused on its way. -/
abbrev InPlace (α β : Type) := ExceptT (Refusal α) (StateM (Automaton α)) β

namespace InPlace

variable {α β γ : Type}

/-- The answer, and the automaton as it is left. -/
def on (x : InPlace α β) (A : Automaton α) : Except (Refusal α) β × Automaton α :=
  (x.run.run A).run

/-- Asks the automaton as it stands. -/
def inquire (ask : Automaton α → Except (Refusal α) β) : InPlace α β := do
  ofExcept (ask (← get))

def addState (data : StateData) : InPlace α State := do
  let A ← get
  set (A.addState data)
  return A.stateCount

def setStart (q : State) : InPlace α Unit := do
  inquire (·.check q)
  modify fun A => { A with start := some q }

def modifyState (q : State) (f : StateData → StateData) : InPlace α Unit := do
  inquire (·.check q)
  modify fun A => { A with stateData := A.stateData.modify q f }

/-- Writes a transition without any check. -/
def record (t : Transition α) : InPlace α Unit :=
  modify fun A => { A with recent := t :: A.recent }

variable [DecidableEq α]

def addTransition (p : State) (label : Label α) (q : State) : InPlace α Bool := do
  inquire (·.check p)
  inquire (·.check q)
  inquire (·.checkLabel label)
  if (← get).recent.contains ⟨p, label, q⟩ then
    return false
  else
    record ⟨p, label, q⟩
    return true

/-- The gaps are found before the sink is added, and the transitions are then written one by one. -/
def complete : InPlace α (Option State) := do
  let gaps := (← get).gaps
  if gaps = [] then
    return none
  else
    let sink ← addState ⟨false, none⟩
    gaps.forM fun (p, a) => record ⟨p, .symbol a, sink⟩
    (← get).alphabet.forM fun a => record ⟨sink, .symbol a, sink⟩
    return some sink

def call : Edit α → InPlace α Reply
  | .addState data => return .state (← addState data)
  | .setStart q => do
      setStart q
      return .done
  | .setAccepting q accepting => do
      modifyState q fun data => { data with accepting }
      return .done
  | .setName q name => do
      modifyState q fun data => { data with name := some name }
      return .done
  | .addTransition p label q => return .isNew (← addTransition p label q)
  | .complete => return .sink (← complete)

/-! ## All or nothing -/

/-- What is left of a function's result: the changed automaton, or the old one after a refusal. -/
def settle (A : Automaton α) :
    Except (Refusal α) (β × Automaton α) → Except (Refusal α) β × Automaton α
  | .ok (b, B) => (.ok b, B)
  | .error refusal => (.error refusal, A)

section Settled

omit [DecidableEq α]

variable {A : Automaton α}

theorem on_bind (x : InPlace α β) (f : β → InPlace α γ) :
    (x >>= f).on A =
      match x.on A with
      | (.ok b, B) => (f b).on B
      | (.error refusal, B) => (.error refusal, B) := by
  rcases h : x.on A with ⟨refusal | b, B⟩
  · have hrun : x.run.run A = (.error refusal, B) := h
    simp only [on, ExceptT.run_bind, StateT.run_bind, hrun]
    rfl
  · have hrun : x.run.run A = (.ok b, B) := h
    simp only [on, ExceptT.run_bind, StateT.run_bind, hrun]
    rfl

theorem on_get_bind (f : Automaton α → InPlace α β) : (get >>= f).on A = (f A).on A := rfl

theorem on_inquire (ask : Automaton α → Except (Refusal α) β) :
    (inquire ask).on A = (ask A, A) := by
  have hask : (inquire ask).on A = (ofExcept (ask A) : InPlace α β).on A := rfl
  rw [hask]
  cases ask A <;> rfl

/-- A question changes nothing, so it may stand before a computation that is all or nothing. -/
theorem on_inquire_bind {ask : Automaton α → Except (Refusal α) γ} {f : γ → InPlace α β}
    {g : γ → Except (Refusal α) (β × Automaton α)} (h : ∀ c, (f c).on A = settle A (g c)) :
    (inquire ask >>= f).on A = settle A (ask A >>= g) := by
  rw [on_bind, on_inquire]
  cases ask A with
  | error refusal => rfl
  | ok c => exact h c

theorem on_bind_pure {x : InPlace α β} {r : Except (Refusal α) (β × Automaton α)}
    (h : x.on A = settle A r) (f : β → γ) :
    (x >>= fun b => pure (f b)).on A = settle A (r >>= fun (b, B) => pure (f b, B)) := by
  rw [on_bind, h]
  cases r with
  | error refusal => rfl
  | ok result => rfl

theorem on_addState (data : StateData) :
    (addState data).on A = (.ok A.stateCount, A.addState data) := rfl

theorem on_setStart (q : State) :
    (setStart q).on A = settle A (A.setStart q >>= fun B => pure ((), B)) := by
  rw [Automaton.setStart, bind_assoc]
  exact on_inquire_bind fun _ => rfl

theorem on_modifyState (q : State) (f : StateData → StateData) :
    (modifyState q f).on A = settle A (A.modifyState q f >>= fun B => pure ((), B)) := by
  rw [Automaton.modifyState, bind_assoc]
  exact on_inquire_bind fun _ => rfl

theorem on_forM_record (items : List β) (f : β → Transition α) :
    (items.forM fun b => record (f b)).on A =
      (.ok (), { A with recent := (items.map f).reverse ++ A.recent }) := by
  induction items generalizing A with
  | nil => rfl
  | cons b items ih =>
      change (record (f b) >>= fun _ => items.forM fun b => record (f b)).on A = _
      rw [on_bind]
      refine ih.trans ?_
      simp

end Settled

theorem on_addTransition {A : Automaton α} (p : State) (label : Label α) (q : State) :
    (addTransition p label q).on A = settle A (A.addTransition p label q) := by
  refine on_inquire_bind fun _ => on_inquire_bind fun _ => on_inquire_bind fun _ => ?_
  rw [on_get_bind]
  by_cases ht : ⟨p, label, q⟩ ∈ A.recent
  · rw [if_pos (List.contains_iff_mem.2 ht), if_pos ht]
    rfl
  · rw [if_neg (mt List.contains_iff_mem.1 ht), if_neg ht]
    rfl

theorem on_complete {A : Automaton α} :
    (complete : InPlace α (Option State)).on A = (.ok A.complete.1, A.complete.2) := by
  rw [complete, on_get_bind, Automaton.complete]
  cases hgaps : A.gaps with
  | nil => rfl
  | cons gap gaps =>
      rw [if_neg (by simp)]
      simp only [on_bind, on_addState, on_forM_record]
      rw [List.reverse_append, List.append_assoc]
      rfl

end InPlace

variable {α : Type} [DecidableEq α]

/-- Runs one call in place. -/
def perform (A : Automaton α) (e : Edit α) : Except (Refusal α) Reply × Automaton α :=
  (InPlace.call e).on A

/-- What a history of calls leaves, the refused ones among them. -/
def performAll (A : Automaton α) (edits : List (Edit α)) : Automaton α :=
  edits.foldl (fun A e => (A.perform e).2) A

theorem perform_eq_editOrKeep (A : Automaton α) (e : Edit α) :
    A.perform e = A.editOrKeep e := by
  have hkeep : A.editOrKeep e = InPlace.settle A (A.edit e) := by
    rw [editOrKeep]
    cases A.edit e <;> rfl
  rw [hkeep, perform]
  cases e with
  | addState data => rfl
  | setStart q =>
      refine (InPlace.on_bind_pure (InPlace.on_setStart q) fun _ => Reply.done).trans ?_
      rw [bind_assoc]
      rfl
  | setAccepting q accepting =>
      refine (InPlace.on_bind_pure (InPlace.on_modifyState q _) fun _ => Reply.done).trans ?_
      rw [bind_assoc]
      rfl
  | setName q name =>
      refine (InPlace.on_bind_pure (InPlace.on_modifyState q _) fun _ => Reply.done).trans ?_
      rw [bind_assoc]
      rfl
  | addTransition p label q => exact InPlace.on_bind_pure (InPlace.on_addTransition p label q) _
  | complete => exact InPlace.on_bind_pure (r := .ok A.complete) InPlace.on_complete _

end Acceptors.Automaton
