import Acceptors.Automaton.InPlace
import Acceptors.Proofs.Built

/-!
# Histories of calls

Calls may come in any order and with any arguments, and those that are refused are part of the
history.  They change nothing, so that a history leaves an automaton that could have been built
without them.
-/

namespace Acceptors.Automaton

variable {α : Type} [DecidableEq α] {A B : Automaton α} {e : Edit α}

theorem perform_eq_ok_iff {reply : Reply} :
    A.perform e = (.ok reply, B) ↔ A.edit e = .ok (reply, B) := by
  rw [perform_eq_editOrKeep, editOrKeep]
  cases A.edit e with
  | error refusal => simp
  | ok result => simp [Prod.ext_iff]

theorem perform_eq_error_iff {refusal : Refusal α} :
    A.perform e = (.error refusal, B) ↔ A.edit e = .error refusal ∧ B = A := by
  rw [perform_eq_editOrKeep, editOrKeep]
  cases A.edit e with
  | error refusal => simp [@eq_comm _ B]
  | ok result => simp

theorem perform_addTransition_eq_ok_iff {p q : State} {label : Label α} {isNew : Bool} :
    A.perform (.addTransition p label q) = (.ok (.isNew isNew), B) ↔
      A.addTransition p label q = .ok (isNew, B) := by
  rw [perform_eq_ok_iff, edit_addTransition_eq_ok]
  simp

theorem Built.perform (built : A.Built) (e : Edit α) : (A.perform e).2.Built := by
  rcases h : A.perform e with ⟨refusal | reply, B⟩
  · rw [(perform_eq_error_iff.1 h).2]
    exact built
  · exact built.edit (perform_eq_ok_iff.1 h)

theorem Built.performAll (built : A.Built) (edits : List (Edit α)) :
    (A.performAll edits).Built := by
  induction edits generalizing A with
  | nil => exact built
  | cons e edits ih => exact ih (built.perform e)

/--
Whatever is built, and whatever calls are then made on it, is well formed.  A refused call changes
nothing at all, and a transition is added exactly if it was not there, and then nothing else is
changed.
-/
theorem performAll_wellFormed (built : A.Built) (edits : List (Edit α)) :
    ∃ B, A.performAll edits = B ∧ B.WellFormed ∧
      (∀ e refusal C, B.perform e = (.error refusal, C) → C = B) ∧
      ∀ p label q isNew C, B.perform (.addTransition p label q) = (.ok (.isNew isNew), C) ↔
        (p ∈ B.states ∧ q ∈ B.states ∧ B.Permits label) ∧
          (⟨p, label, q⟩ ∈ B.transitions ∧ isNew = false ∧ C = B ∨
            ⟨p, label, q⟩ ∉ B.transitions ∧ isNew = true ∧
              C = { B with recent := ⟨p, label, q⟩ :: B.recent }) := by
  refine ⟨A.performAll edits, rfl, (built.performAll edits).wellFormed, ?_, ?_⟩
  · exact fun e refusal C h => (perform_eq_error_iff.1 h).2
  · intro p label q isNew C
    rw [perform_addTransition_eq_ok_iff, addTransition_eq_ok]
    simp only [mem_states, mem_transitions]

theorem performAll_epsilonCycle :
    epsilonCycle.Built ∧
      ∃ B, epsilonCycle.performAll [.addTransition 0 .epsilon 7, .complete, .setStart 3] = B ∧
        B.WellFormed ∧ B.start = some 3 ∧
          B.perform (.addTransition 3 (.symbol 'c') 0) = (.error (.foreignSymbol 'c'), B) := by
  refine ⟨built_epsilonCycle, ?_⟩
  obtain ⟨B, hB, wf, hrefused, -⟩ := performAll_wellFormed built_epsilonCycle
    [.addTransition 0 .epsilon 7, .complete, .setStart 3]
  have hstart : B.start = some 3 := hB ▸ rfl
  have hanswer : (B.perform (.addTransition 3 (.symbol 'c') 0)).1 =
      .error (.foreignSymbol 'c') := hB ▸ rfl
  have hkept := hrefused _ _ _ (Prod.ext hanswer rfl)
  exact ⟨B, hB, wf, hstart, Prod.ext hanswer hkept⟩

end Acceptors.Automaton
