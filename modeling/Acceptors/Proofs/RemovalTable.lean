import Acceptors.Proofs.CanonicalRemoval

/-!
# The table of a removal

The removal of epsilon transitions keeps every state under its number, whether or not the start
leads to it.  A state moves and accepts as the states do that epsilon transitions lead to from it.
The targets of its moves are not closed: what lies behind further epsilon transitions is found from
the target.
-/

namespace Acceptors.Automaton

variable {α : Type} [DecidableEq α] {A : Automaton α} {start q r : State}

theorem check_closedAutomaton (start q : State) :
    (A.closedAutomaton start).check q = A.check q := by
  rw [check, check, contains, contains, stateCount_closedAutomaton]

/-- Unknown states are refused as before. -/
theorem name_closedAutomaton (start q : State) :
    (A.closedAutomaton start).name q = A.name q := by
  rw [name, name, check_closedAutomaton, name?_closedAutomaton]

theorem WellFormed.isAccepting_closedAutomaton (wf : A.WellFormed) :
    (A.closedAutomaton start).isAccepting q = .ok true ↔
      ∃ p, A.EpsilonReach q p ∧ A.isAccepting p = .ok true := by
  simp only [isAccepting_eq_ok_true]
  exact wf.isAcceptingState_closedAutomaton

theorem WellFormed.mem_transitions_closedAutomaton (wf : A.WellFormed) {a : α} :
    ⟨q, .symbol a, r⟩ ∈ (A.closedAutomaton start).transitions ↔
      ∃ p, A.EpsilonReach q p ∧ ⟨p, .symbol a, r⟩ ∈ A.transitions := by
  simp only [mem_transitions, wf.mem_recent_closedAutomaton, Label.symbol.injEq, exists_eq_left']

/--
The removal keeps the states, their names and the start.  A state has the transitions of the states
that epsilon transitions lead to from it, each once, and accepts if one of those does.
-/
theorem withoutEpsilon_table (built : A.Built) (hstart : A.start = some start) :
    ∃ E, A.withoutEpsilon = .ok E ∧ E.kind = .nondeterministic ∧ E.alphabet = A.alphabet ∧
      E.start = some start ∧ E.stateCount = A.stateCount ∧ (∀ q, E.name q = A.name q) ∧
      E.IsEpsilonFree ∧ E.transitions.Nodup ∧
      (∀ q a r, ⟨q, .symbol a, r⟩ ∈ E.transitions ↔
        ∃ p, A.EpsilonReach q p ∧ ⟨p, .symbol a, r⟩ ∈ A.transitions) ∧
      ∀ q, E.isAccepting q = .ok true ↔ ∃ p, A.EpsilonReach q p ∧ A.isAccepting p = .ok true := by
  have wf := built.wellFormed
  have wfE := wf.closedAutomaton hstart
  refine ⟨A.closedAutomaton start, withoutEpsilon_eq_ok.2 ⟨start, hstart, rfl⟩, rfl, rfl, rfl,
    stateCount_closedAutomaton start, name_closedAutomaton start, ?_, ?_, ?_, ?_⟩
  · exact wfE.isEpsilonFree rfl
  · exact List.nodup_reverse.2 wfE.recent_nodup
  · exact fun q a r => wf.mem_transitions_closedAutomaton
  · exact fun q => wf.isAccepting_closedAutomaton

/-- Two states share their moves, the third gains none, and targets are not closed. -/
theorem withoutEpsilon_table_epsilonCycle :
    epsilonCycle.Built ∧ epsilonCycle.start = some 0 ∧
      ∃ E, epsilonCycle.withoutEpsilon = .ok E ∧ E.stateCount = 3 ∧
        ⟨0, .symbol 'a', 1⟩ ∈ E.transitions ∧ ⟨1, .symbol 'a', 2⟩ ∈ E.transitions ∧
        ⟨2, .symbol 'b', 1⟩ ∉ E.transitions ∧
        E.isAccepting 2 = .ok true ∧ ¬ E.isAccepting 0 = .ok true := by
  have wf := built_epsilonCycle.wellFormed
  obtain ⟨E, hE, -, -, -, hcount, -, -, -, hmoves, haccepting⟩ :=
    withoutEpsilon_table built_epsilonCycle rfl
  have hforth : epsilonCycle.EpsilonReach 0 1 := (wf.mem_closure_singleton (by decide)).1 (by decide)
  have hback : epsilonCycle.EpsilonReach 1 0 := (wf.mem_closure_singleton (by decide)).1 (by decide)
  refine ⟨built_epsilonCycle, rfl, E, hE, hcount, ?_, ?_, ?_, ?_, ?_⟩
  · exact (hmoves 0 'a' 1).2 ⟨1, hforth, by decide⟩
  · exact (hmoves 1 'a' 2).2 ⟨0, hback, by decide⟩
  · rw [hmoves]
    rintro ⟨p, -, ht⟩
    simp [transitions, epsilonCycle] at ht
  · exact (haccepting 2).2 ⟨2, .refl 2, rfl⟩
  · rw [haccepting]
    rintro ⟨p, hreach, hp⟩
    have hclosed : p ∈ epsilonCycle.closure [0] := (wf.mem_closure_singleton (by decide)).2 hreach
    have hnone : ∀ q ∈ (epsilonCycle.closure [0]).toList,
        epsilonCycle.isAccepting q ≠ .ok true := by decide
    exact hnone p (StateSet.mem_toList.2 hclosed) hp

end Acceptors.Automaton
