import Acceptors.Proofs.Completion
import Acceptors.Proofs.ReachablePart

/-!
# Runs of deterministic automata

The check for determinism counts labels, and what it says is about targets: as no transition is
stored twice, a state has two transitions under one symbol only if these lead to two states.  So a
run of a deterministic automaton keeps one state, or none after it died.  If the table is complete
as well, no word over the alphabet makes it die.
-/

namespace Acceptors.Automaton

variable {α : Type} {A : Automaton α}

theorem isEpsilonFree_iff_label_ne :
    A.IsEpsilonFree ↔ ∀ t ∈ A.transitions, t.label ≠ .epsilon := by
  simp only [IsEpsilonFree, mem_transitions]
  refine forall₂_congr fun t _ => ?_
  cases t.label <;> simp [Label.isEpsilon]

variable [DecidableEq α] {start : State}

theorem WellFormed.after_of_isDeterministic (wf : A.WellFormed)
    (deterministic : A.IsDeterministic) (hlt : start < A.stateCount) (word : List α) :
    A.after start word = ∅ ∨ ∃ q, A.after start word = .singleton q := by
  by_cases hdead : A.after start word = ∅
  · exact .inl hdead
  · -- A run that is alive has met no foreign symbol, so that its set is reached over the alphabet.
    have hleads : A.LeadsTo start (A.after start word) :=
      leadsTo_after (wf.word_over_alphabet hdead)
    obtain ⟨q, -, hq⟩ := wf.eq_singleton_of_leadsTo deterministic hlt hleads hdead
    exact .inr ⟨q, hq⟩

theorem WellFormed.size_after_le_one (wf : A.WellFormed) (deterministic : A.IsDeterministic)
    (hlt : start < A.stateCount) (word : List α) : (A.after start word).size ≤ 1 := by
  rcases wf.after_of_isDeterministic deterministic hlt word with hdead | ⟨q, hq⟩
  · simp [hdead]
  · simp [hq]

theorem WellFormed.size_after_eq_one (wf : A.WellFormed) (deterministic : A.IsDeterministic)
    (full : A.IsComplete) (hlt : start < A.stateCount) {word : List α}
    (hword : ∀ a ∈ word, a ∈ A.alphabet) : (A.after start word).size = 1 := by
  have halive := wf.after_ne_empty full hlt hword
  rcases wf.after_of_isDeterministic deterministic hlt word with hdead | ⟨q, hq⟩
  · exact absurd hdead halive
  · simp [hq]

/--
At every point of construction the check for determinism is exact.  What passes it keeps at most one
state active, and exactly one on words over the alphabet if the table is complete.
-/
theorem isDeterministic_exact (built : A.Built) :
    (A.IsDeterministic ↔ (∀ t ∈ A.transitions, t.label ≠ .epsilon) ∧
      ∀ q ∈ A.states, ∀ a, (A.targets q (.symbol a)).length ≤ 1) ∧
    (A.IsDeterministic → ∀ start, A.start = some start → ∀ word : List α, ∃ active,
      A.run word = .ok active ∧ active.size ≤ 1 ∧
        (A.IsComplete → (∀ a ∈ word, a ∈ A.alphabet) → active.size = 1)) := by
  have wf := built.wellFormed
  constructor
  · rw [wf.isDeterministic_iff_length_targets, isEpsilonFree_iff_label_ne]
  · intro deterministic start hstart word
    have hlt := wf.start_lt start hstart
    refine ⟨A.after start word, run_of_start hstart word,
      wf.size_after_le_one deterministic hlt word, ?_⟩
    exact fun full hword => wf.size_after_eq_one deterministic full hlt hword

/-- After completion the check still holds, and a second target under a symbol makes it fail. -/
theorem isDeterministic_exact_unreachedLast :
    unreachedLast.Built ∧
      (∃ B, (unreachedLast.perform .complete).2 = B ∧ B.start = some 1 ∧ B.IsDeterministic ∧
        B.IsComplete ∧ ∃ active, B.run ['a', 'a', 'b'] = .ok active ∧ active.size = 1) ∧
      ∃ B, (unreachedLast.perform (.addTransition 1 (.symbol 'a') 2)).2 = B ∧
        ¬ B.IsDeterministic := by
  refine ⟨built_unreachedLast, ⟨_, rfl, rfl, ?_⟩, _, rfl, ?_⟩
  · obtain ⟨-, hruns⟩ := isDeterministic_exact (built_unreachedLast.perform .complete)
    have deterministic : (unreachedLast.perform .complete).2.IsDeterministic := by decide
    have full : (unreachedLast.perform .complete).2.IsComplete := by decide
    have halphabet : (unreachedLast.perform .complete).2.alphabet = ['a', 'b'] := rfl
    obtain ⟨active, hrun, -, hone⟩ := hruns deterministic 1 rfl ['a', 'a', 'b']
    exact ⟨deterministic, full, active, hrun, hone full (by simp [halphabet])⟩
  · obtain ⟨hexact, -⟩ :=
      isDeterministic_exact (built_unreachedLast.perform (.addTransition 1 (.symbol 'a') 2))
    intro deterministic
    have hone := (hexact.1 deterministic).2 1 (by decide) 'a'
    exact absurd hone (by decide)

end Acceptors.Automaton
