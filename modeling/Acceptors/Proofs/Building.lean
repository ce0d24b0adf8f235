import Acceptors.Automaton.Recorded
import Acceptors.Proofs.Histories

/-!
# Computations of which every call is accepted

`Builds` says of a computation that it comes to its end on a well-formed automaton, with which value
and with which automaton, and that all calls it made are accepted.  There is one rule for each way
to put computations together, so that no proof about a conversion looks at the record itself.
-/

namespace Acceptors.Automaton

variable {α β γ : Type} {A B C : Automaton α}

/--
The call is answered, it names states that exist, if it adds a transition then a new one, and it
leaves a well-formed automaton.
-/
structure Made.Accepted (m : Made α) : Prop where
  answered : ∃ reply, m.answer = .ok reply
  isNew : ∀ p label q, m.edit = .addTransition p label q → m.answer = .ok (.isNew true)
  states_lt : ∀ q ∈ m.edit.states, q < m.before.stateCount
  wellFormed : m.after.WellFormed

namespace Building

/-- The computation succeeds, all of its calls are accepted, and it leads from `A` to `B`. -/
def Builds (x : Building α β) (A : Automaton α) (b : β) (B : Automaton α) : Prop :=
  A.WellFormed → B.WellFormed ∧ ∀ made, ∃ more,
    x.on ⟨A, made⟩ = (.ok b, ⟨B, more ++ made⟩) ∧ ∀ m ∈ more, m.Accepted

theorem Builds.exists_made {x : Building α β} {b : β} (h : x.Builds A b B) (wf : A.WellFormed) :
    ∃ made, x.on ⟨A, []⟩ = (.ok b, ⟨B, made⟩) ∧ ∀ m ∈ made, m.Accepted := by
  obtain ⟨-, hon⟩ := h wf
  simpa using hon []

theorem builds_pure (b : β) : (pure b : Building α β).Builds A b A :=
  fun wf => ⟨wf, fun _ => ⟨[], rfl, by simp⟩⟩

theorem builds_ofExcept {ask : Except (Refusal α) β} {b : β} (h : ask = .ok b) :
    (ofExcept ask : Building α β).Builds A b A := by
  cases h
  exact builds_pure b

theorem builds_nextState : (nextState : Building α State).Builds A A.stateCount A :=
  fun wf => ⟨wf, fun _ => ⟨[], rfl, by simp⟩⟩

theorem Builds.bind {x : Building α β} {f : β → Building α γ} {b : β} {c : γ}
    (hx : x.Builds A b B) (hf : (f b).Builds B c C) : (x >>= f).Builds A c C := by
  intro wfA
  obtain ⟨wfB, honx⟩ := hx wfA
  obtain ⟨wfC, honf⟩ := hf wfB
  refine ⟨wfC, fun made => ?_⟩
  obtain ⟨first, hfirst, haccepted⟩ := honx made
  obtain ⟨later, hlater, haccepted'⟩ := honf (first ++ made)
  refine ⟨later ++ first, ?_, List.forall_mem_append.2 ⟨haccepted', haccepted⟩⟩
  rw [List.append_assoc, ← hlater]
  have hrun : x.run.run ⟨A, made⟩ = (.ok b, ⟨B, first ++ made⟩) := hfirst
  simp only [on, ExceptT.run_bind, StateT.run_bind, hrun]
  rfl

/-- A loop builds what its steps build, given what stands after each of them. -/
theorem builds_foldlM {f : γ → β → Building α γ} {items : List β} (value : List β → γ)
    (stage : List β → Automaton α)
    (h : ∀ done b later, items = done ++ b :: later →
      (f (value done) b).Builds (stage done) (value (done ++ [b])) (stage (done ++ [b]))) :
    (items.foldlM f (value [])).Builds (stage []) (value items) (stage items) := by
  induction items generalizing value stage with
  | nil => exact builds_pure _
  | cons b items ih =>
      have hfirst := h [] b items rfl
      have hrest := ih (fun done => value (b :: done)) (fun done => stage (b :: done))
        fun done c later heq => h (b :: done) c later (congrArg (b :: ·) heq)
      exact hfirst.bind hrest

theorem forM_eq_foldlM (f : β → Building α Unit) (items : List β) :
    items.forM f = items.foldlM (fun _ => f) () := by
  induction items with
  | nil => rfl
  | cons b items ih => exact congrArg (f b >>= fun _ => ·) ih

theorem builds_forM {f : β → Building α Unit} {items : List β} (stage : List β → Automaton α)
    (h : ∀ done b later, items = done ++ b :: later →
      (f b).Builds (stage done) () (stage (done ++ [b]))) :
    (items.forM f).Builds (stage []) () (stage items) := by
  rw [forM_eq_foldlM]
  exact builds_foldlM (fun _ => ()) stage h

/-- Nested loops make the calls of one loop over all that they list. -/
theorem forM_flatMap (items : List β) (list : β → List γ) (f : γ → Building α Unit) :
    (items.flatMap list).forM f = items.forM fun b => (list b).forM f := by
  induction items with
  | nil => rfl
  | cons b items ih =>
      rw [List.flatMap_cons]
      exact (List.forM_append).trans (congrArg ((list b).forM f >>= fun _ => ·) ih)

end Building

/-! ## Accepted calls -/

variable [DecidableEq α]

theorem states_lt_of_edit {e : Edit α} {reply : Reply} (h : A.edit e = .ok (reply, B)) :
    ∀ q ∈ e.states, q < A.stateCount := by
  cases e with
  | addState data => simp [Edit.states]
  | setStart q => simpa [Edit.states] using (setStart_eq_ok.1 (edit_setStart_eq_ok.1 h).2).1
  | setAccepting q accepting =>
      simpa [Edit.states] using (modifyState_eq_ok.1 (edit_setAccepting_eq_ok.1 h).2).1
  | setName q name =>
      simpa [Edit.states] using (modifyState_eq_ok.1 (edit_setName_eq_ok.1 h).2).1
  | addTransition p label q =>
      obtain ⟨isNew, -, hadded⟩ := edit_addTransition_eq_ok.1 h
      obtain ⟨⟨hp, hq, -⟩, -⟩ := addTransition_eq_ok.1 hadded
      simp [Edit.states, hp, hq]
  | complete => simp [Edit.states]

namespace Building

theorem builds_call {e : Edit α} {reply : Reply} (h : A.edit e = .ok (reply, B))
    (hnew : reply ≠ .isNew false) : (call e).Builds A reply B := by
  intro wf
  refine ⟨wf.edit h, fun made => ⟨[⟨A, e, .ok reply, B⟩], ?_, ?_⟩⟩
  · have hperform : A.perform e = (.ok reply, B) := perform_eq_ok_iff.2 h
    have hcall : (call e).on ⟨A, made⟩ =
        (ofExcept (A.perform e).1 : Building α Reply).on
          ⟨(A.perform e).2, ⟨A, e, (A.perform e).1, (A.perform e).2⟩ :: made⟩ := rfl
    rw [hcall, hperform]
    rfl
  · refine List.forall_mem_singleton.2 ⟨⟨reply, rfl⟩, ?_, states_lt_of_edit h, wf.edit h⟩
    rintro p label q rfl
    obtain ⟨isNew, rfl, -⟩ := edit_addTransition_eq_ok.1 h
    cases isNew with
    | false => contradiction
    | true => rfl

theorem builds_make {e : Edit α} {reply : Reply} (h : A.edit e = .ok (reply, B))
    (hnew : reply ≠ .isNew false) : (make e).Builds A () B :=
  (builds_call h hnew).bind (builds_pure ())

theorem builds_addState (data : StateData) :
    (call (.addState data)).Builds A (.state A.stateCount) (A.addState data) :=
  builds_call rfl (by simp)

theorem builds_setStart {q : State} (hq : q < A.stateCount) :
    (make (.setStart q)).Builds A () { A with start := some q } :=
  builds_make (edit_setStart_eq_ok.2 ⟨rfl, setStart_eq_ok.2 ⟨hq, rfl⟩⟩) (by simp)

theorem builds_setName {q : State} {name : String} (h : A.setName q name = .ok B) :
    (make (.setName q name)).Builds A () B :=
  builds_make (edit_setName_eq_ok.2 ⟨rfl, h⟩) (by simp)

theorem builds_complete : (call .complete).Builds A (.sink A.complete.1) A.complete.2 :=
  builds_call rfl (by simp)

theorem builds_addTransition {p q : State} {label : Label α}
    (h : p < A.stateCount ∧ q < A.stateCount ∧ A.Permits label)
    (hnew : ⟨p, label, q⟩ ∉ A.recent) :
    (make (.addTransition p label q)).Builds A ()
      { A with recent := ⟨p, label, q⟩ :: A.recent } := by
  have hadd := addTransition_eq_ok.2 ⟨h, .inr ⟨hnew, rfl, rfl⟩⟩
  exact builds_make (edit_addTransition_eq_ok.2 ⟨true, rfl, hadd⟩) (by simp)

end Building

end Acceptors.Automaton
