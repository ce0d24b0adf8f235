import Acceptors.Proofs.AcceptedWords
import Acceptors.Proofs.ClosureAnswers
import Acceptors.Proofs.DerivationByCalls
import Acceptors.Proofs.IncrementalRuns

/-!
# Failures

Without a start state no conversion and no run begins, and none of them changes anything.  With one
they all come to their end: every call that a conversion makes is accepted, and every state that it
asks about is known.
-/

namespace Acceptors.Automaton

open Building

variable {α : Type} [DecidableEq α] {A : Automaton α} {start : State}

/-! ## Without a start state -/

section

variable (hnone : A.start = none)

include hnone

theorem determinize_of_no_start (complete : Bool) (naming : Naming) :
    A.determinize complete naming = .error .noStartState := by
  simp [determinize, partialDeterminize, initial_of_no_start hnone, bind, Except.bind]

theorem withoutEpsilon_of_no_start : A.withoutEpsilon = .error .noStartState := by
  simp [withoutEpsilon, initial_of_no_start hnone, bind, Except.bind]

theorem run_of_no_start (word : List α) : A.run word = .error .noStartState := by
  simp [run, initial_of_no_start hnone, bind, Except.bind]

theorem deriveByCalls_of_no_start (complete : Bool) (naming : Naming) (site : Site α) :
    (A.deriveByCalls complete naming).on site = (.error .noStartState, site) := by
  unfold deriveByCalls
  rw [initial_of_no_start hnone]
  rfl

theorem removeByCalls_of_no_start (site : Site α) :
    A.removeByCalls.on site = (.error .noStartState, site) := by
  unfold removeByCalls
  rw [initial_of_no_start hnone]
  rfl

end

/-! ## With a start state -/

theorem WellFormed.contains_of_mem_moved (wf : A.WellFormed) {S : StateSet} {a : α} {q : State}
    (hq : q ∈ A.moved S a) : A.contains q := by
  obtain ⟨p, -, ht⟩ := mem_moved.1 hq
  exact contains_iff.2 (wf.target_lt _ ht)

theorem WellFormed.determinize_by_calls (wf : A.WellFormed) (hstart : A.start = some start)
    (complete : Bool) (naming : Naming) :
    ∃ d, A.determinize complete naming = .ok d ∧
      (∃ f made, (A.deriveByCalls complete naming).on ⟨empty .deterministic A.alphabet, []⟩ =
          (.ok f, ⟨d.automaton, made⟩) ∧
        (∀ m ∈ made, m.Accepted) ∧ f.labels = d.labels ∧ f.waiting = []) ∧
      ∀ S ∈ d.labels, (∀ q ∈ S, A.contains q) ∧ ∀ a, ∀ q ∈ A.moved S a, A.contains q := by
  obtain ⟨d, hd⟩ := exists_determinize hstart complete naming
  obtain ⟨f, hf, hlabels, hwaiting⟩ := wf.builds_deriveByCalls hstart hd
  obtain ⟨made, hmade, haccepted⟩ := hf.exists_made (wellFormed_empty _ _)
  refine ⟨d, hd, ⟨f, made, hmade, haccepted, hlabels, hwaiting⟩, fun S hS => ⟨?_, ?_⟩⟩
  · have hleads := ((wf.mem_labels_determinize hstart hd).1 hS).1
    exact fun q hq => contains_iff.2 (wf.lt_of_leadsTo hleads q hq)
  · exact fun a q hq => wf.contains_of_mem_moved hq

theorem WellFormed.withoutEpsilon_by_calls (wf : A.WellFormed) (hstart : A.start = some start) :
    ∃ E, A.withoutEpsilon = .ok E ∧
      (∃ made, A.removeByCalls.on ⟨empty .nondeterministic A.alphabet, []⟩ =
        (.ok (), ⟨E, made⟩) ∧ ∀ m ∈ made, m.Accepted) ∧
      ∀ S ∈ A.closures, (∀ q ∈ S, A.contains q) ∧ ∀ a, ∀ q ∈ A.moved S a, A.contains q := by
  have hE := withoutEpsilon_eq_ok.2 ⟨start, hstart, rfl⟩
  have hremoved := (wf.builds_removeByCalls hstart).exists_made (wellFormed_empty _ _)
  refine ⟨_, hE, hremoved, fun S hS => ⟨fun q hq => ?_, fun a q hq => ?_⟩⟩
  · rw [closures_eq_map] at hS
    obtain ⟨p, -, rfl⟩ := List.mem_map.1 hS
    exact contains_iff.2 (wf.lt_of_mem_closure hq)
  · exact wf.contains_of_mem_moved hq

/--
A missing start state is the only reason to fail, and then nothing is changed.  With a start state
both conversions can be made by calls alone.  All of the calls are accepted, none adds a transition
twice, and the states that they name, and those that are looked at in the source, exist.
-/
theorem conversions_fail_only_without_start (built : A.Built) :
    (A.start = none →
      (∀ complete naming, A.determinize complete naming = .error .noStartState ∧
        ∀ site, (A.deriveByCalls complete naming).on site = (.error .noStartState, site)) ∧
      A.toDFA = .error .noStartState ∧
      A.withoutEpsilon = .error .noStartState ∧
      (∀ site, A.removeByCalls.on site = (.error .noStartState, site)) ∧
      Simulation.start A = .error .noStartState ∧
      (∀ word, A.accepts word = .error .noStartState ∧ A.run word = .error .noStartState) ∧
      ∀ maxLength, A.acceptedWords maxLength = .error .noStartState) ∧
    (∀ start, A.start = some start →
      (∀ complete naming, ∃ d, A.determinize complete naming = .ok d ∧
        (∃ f made, (A.deriveByCalls complete naming).on ⟨empty .deterministic A.alphabet, []⟩ =
            (.ok f, ⟨d.automaton, made⟩) ∧
          (∀ m ∈ made, m.Accepted) ∧ f.labels = d.labels ∧ f.waiting = []) ∧
        ∀ S ∈ d.labels, (∀ q ∈ S, A.contains q) ∧ ∀ a, ∀ q ∈ A.moved S a, A.contains q) ∧
      (∃ D, A.toDFA = .ok D) ∧
      (∃ E, A.withoutEpsilon = .ok E ∧
        (∃ made, A.removeByCalls.on ⟨empty .nondeterministic A.alphabet, []⟩ =
          (.ok (), ⟨E, made⟩) ∧ ∀ m ∈ made, m.Accepted) ∧
        ∀ S ∈ A.closures, (∀ q ∈ S, A.contains q) ∧ ∀ a, ∀ q ∈ A.moved S a, A.contains q) ∧
      (∃ s, Simulation.start A = .ok s) ∧
      (∀ word, (∃ accepted, A.accepts word = .ok accepted) ∧ ∃ active, A.run word = .ok active) ∧
      ∀ maxLength, ∃ words, A.acceptedWords maxLength = .ok words) := by
  have wf := built.wellFormed
  constructor
  · intro hnone
    refine ⟨fun complete naming => ⟨determinize_of_no_start hnone complete naming,
      deriveByCalls_of_no_start hnone complete naming⟩, ?_, withoutEpsilon_of_no_start hnone,
      removeByCalls_of_no_start hnone, ?_, fun word => ⟨?_, run_of_no_start hnone word⟩,
      acceptedWords_of_no_start hnone⟩
    · rw [toDFA, determinize_of_no_start hnone]
      rfl
    · rw [Simulation.start, initial_of_no_start hnone]
      rfl
    · rw [accepts, run_of_no_start hnone]
      rfl
  · intro start hstart
    refine ⟨wf.determinize_by_calls hstart, ?_, wf.withoutEpsilon_by_calls hstart, ?_, ?_, ?_⟩
    · obtain ⟨d, hd⟩ := exists_determinize hstart false .numbered
      exact ⟨_, toDFA_eq_ok.2 ⟨d, hd, rfl⟩⟩
    · exact ⟨_, Simulation.start_of_start hstart⟩
    · exact fun word => ⟨⟨_, accepts_of_start hstart word⟩, ⟨_, run_of_start hstart word⟩⟩
    · exact fun maxLength => ⟨_, acceptedWords_of_start hstart maxLength⟩

/-- Two states are added and three transitions, a start is set, and the sink is added and named. -/
theorem conversions_epsilonCycle :
    epsilonCycle.Built ∧ epsilonCycle.start = some 0 ∧
      (∃ d f made, epsilonCycle.determinize true .sourceSets = .ok d ∧
        (epsilonCycle.deriveByCalls true .sourceSets).on ⟨empty .deterministic ['a', 'b'], []⟩ =
          (.ok f, ⟨d.automaton, made⟩) ∧
        made.length = 8 ∧ ∀ m ∈ made, m.Accepted) ∧
      (empty .deterministic ['a']).Built ∧
        (empty .deterministic ['a']).toDFA = .error .noStartState := by
  obtain ⟨-, hsome⟩ := conversions_fail_only_without_start built_epsilonCycle
  obtain ⟨hderived, -⟩ := hsome 0 rfl
  obtain ⟨d, hd, ⟨f, made, hmade, haccepted, -⟩, -⟩ := hderived true .sourceSets
  obtain ⟨hnone, -⟩ := conversions_fail_only_without_start (Built.empty .deterministic ['a'])
  obtain ⟨-, htoDFA, -⟩ := hnone rfl
  have hlength : ((epsilonCycle.deriveByCalls true .sourceSets).on
      ⟨empty .deterministic epsilonCycle.alphabet, []⟩).2.made.length = 8 := by decide +kernel
  rw [hmade] at hlength
  exact ⟨built_epsilonCycle, rfl, ⟨d, f, made, hd, hmade, hlength, haccepted⟩, .empty _ _, htoDFA⟩

end Acceptors.Automaton
