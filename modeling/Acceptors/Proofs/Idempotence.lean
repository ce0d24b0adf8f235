import Acceptors.Proofs.Correspondence
import Acceptors.Proofs.DerivedRuns

/-!
# Determinizing twice

A determinization without a sink is its own determinization.  Where the first search keeps a set of
source states, the second one keeps the one derived state of that set, so that both searches run in
lockstep and give every state the same number.
-/

namespace Acceptors

variable {α : Type} [DecidableEq α] {A : Automaton α} {start : State} {d : Determinized α}

/-- The derived state that stands for a set, as a set; a set without a state has none. -/
def Determinized.statesFor (d : Determinized α) (S : StateSet) : StateSet :=
  .ofList (d.stateFor? S).toList

namespace Determinized.Follows

theorem mem_statesFor (follows : d.Follows A start) {S : StateSet} {s : State} :
    s ∈ d.statesFor S ↔ d.label? s = some S := by
  rw [statesFor, StateSet.mem_ofList, Option.mem_toList, follows.stateFor?_eq_some]

theorem statesFor_of_label (follows : d.Follows A start) {S : StateSet} {s : State}
    (hs : d.label? s = some S) : d.statesFor S = .singleton s :=
  follows.eq_singleton (fun _ => follows.mem_statesFor) hs

theorem statesFor_eq_empty_iff (follows : d.Follows A start) {S : StateSet} :
    d.statesFor S = ∅ ↔ S ∉ d.labels := by
  simp only [StateSet.eq_empty_iff, follows.mem_statesFor, List.mem_iff_getElem?, not_exists]
  exact Iff.rfl

theorem map_statesFor_labels (follows : d.Follows A start) :
    d.labels.map d.statesFor = d.automaton.states.map StateSet.singleton := by
  apply List.ext_getElem
  · simp [Automaton.states, follows.stateCount_eq]
  · intro s hs hs'
    have hlt : s < d.labels.length := by simpa using hs
    simp only [List.getElem_map, Automaton.states, List.getElem_range]
    exact follows.statesFor_of_label (List.getElem?_eq_getElem hlt)

end Determinized.Follows

namespace Automaton

section

variable {naming : Naming} (wf : A.WellFormed) (hstart : A.start = some start)
  (h : A.determinize false naming = .ok d)

include wf hstart h

theorem WellFormed.statesFor_injOn : Set.InjOn d.statesFor {S | A.LeadsTo start S} := by
  have follows := wf.follows_determinize hstart h
  intro S hS T hT heq
  -- Of the sets that runs lead to, the empty one is the only one without a state.
  by_cases hempty : S = ∅
  · have hnone : T ∉ d.labels := by
      rw [← follows.statesFor_eq_empty_iff, ← heq, follows.statesFor_eq_empty_iff,
        wf.mem_labels_iff_ne_empty hstart h rfl hS]
      exact not_not.2 hempty
    rw [wf.mem_labels_iff_ne_empty hstart h rfl hT, not_not] at hnone
    rw [hempty, hnone]
  · obtain ⟨s, hs⟩ := List.mem_iff_getElem?.1
      ((wf.mem_labels_iff_ne_empty hstart h rfl hS).2 hempty)
    have hmem : s ∈ d.statesFor T := heq ▸ follows.mem_statesFor.2 hs
    exact Option.some.inj (hs.symm.trans (follows.mem_statesFor.1 hmem))

theorem WellFormed.advance_statesFor {S : StateSet} (hS : A.LeadsTo start S) {a : α}
    (ha : a ∈ A.alphabet) :
    d.automaton.advance (d.statesFor S) a = d.statesFor (A.advance S a) := by
  have follows := wf.follows_determinize hstart h
  refine StateSet.ext fun s => ?_
  rw [follows.mem_advance, follows.mem_statesFor]
  simp only [follows.mem_statesFor]
  constructor
  · rintro ⟨-, q, hq, T, hT, hs⟩
    cases hq.symm.trans hT
    exact hs
  · intro hs
    have hlabel := wf.mem_labels_of_advance hstart h hS (List.mem_of_getElem? hs)
    obtain ⟨q, hq⟩ := List.mem_iff_getElem?.1 hlabel
    exact ⟨ha, q, hq, S, hq, hs⟩

theorem WellFormed.containsAccepting_statesFor {S : StateSet} (hS : A.LeadsTo start S) :
    d.automaton.containsAccepting (d.statesFor S) = A.containsAccepting S := by
  have follows := wf.follows_determinize hstart h
  rw [Bool.eq_iff_iff, containsAccepting_iff]
  simp only [follows.mem_statesFor]
  constructor
  · rintro ⟨s, hs, haccepting⟩
    rwa [← follows.accepting_eq hs]
  · intro haccepting
    obtain ⟨q, hq, -⟩ := containsAccepting_iff.1 haccepting
    have hlabel := (wf.mem_labels_iff_ne_empty hstart h rfl hS).2 (StateSet.nonempty_of_mem hq)
    obtain ⟨s, hs⟩ := List.mem_iff_getElem?.1 hlabel
    exact ⟨s, hs, by rwa [follows.accepting_eq hs]⟩

/-- The determinization keeps one state where its source keeps a set. -/
theorem WellFormed.corresponds_determinize :
    Corresponds d.statesFor A d.automaton start 0 := by
  have follows := wf.follows_determinize hstart h
  have hempty : (∅ : StateSet) ∉ d.labels := by
    rw [wf.mem_labels_determinize hstart h]
    simp
  constructor
  · exact follows.alphabet_eq
  · exact wf.statesFor_injOn hstart h
  · exact follows.statesFor_eq_empty_iff.2 hempty
  · intro S hS hnone
    rw [follows.statesFor_eq_empty_iff, wf.mem_labels_iff_ne_empty hstart h rfl hS] at hnone
    exact not_not.1 hnone
  · refine StateSet.ext fun s => ?_
    rw [follows.mem_closure_start, follows.mem_statesFor]
  · exact fun S hS a ha => wf.advance_statesFor hstart h hS ha
  · exact fun S hS => wf.containsAccepting_statesFor hstart h hS

end

/-- A determinization by default is its own determinization: each state stands for itself. -/
theorem toDFA_idempotent (built : A.Built) (hstart : A.start = some start) :
    ∃ D, A.toDFA = .ok D ∧ D.toDFA = .ok D ∧
      ∃ e, D.determinize false .numbered = .ok e ∧ e.automaton = D ∧
        e.labels = D.states.map StateSet.singleton := by
  have wf := built.wellFormed
  obtain ⟨d, hd⟩ := exists_determinize hstart false .numbered
  have follows := wf.follows_determinize hstart hd
  have htwice := (wf.corresponds_determinize hstart hd).determinize_eq wf follows.wellFormed
    hstart follows.start_eq hd
  exact ⟨d.automaton, toDFA_eq_ok.2 ⟨d, hd, rfl⟩, toDFA_eq_ok.2 ⟨_, htwice, rfl⟩, _, htwice, rfl,
    follows.map_statesFor_labels⟩

theorem toDFA_idempotent_epsilonCycle :
    epsilonCycle.Built ∧ epsilonCycle.start = some 0 ∧
      ∃ D, epsilonCycle.toDFA = .ok D ∧ D.toDFA = .ok D ∧ D.stateCount = 2 ∧
        D.transitions = [⟨0, .symbol 'a', 1⟩, ⟨1, .symbol 'a', 1⟩, ⟨1, .symbol 'b', 0⟩] := by
  refine ⟨built_epsilonCycle, rfl, ?_⟩
  obtain ⟨D, hD, htwice, -⟩ := toDFA_idempotent built_epsilonCycle rfl
  have hshape : epsilonCycle.toDFA.map (fun D => (D.stateCount, D.transitions)) =
      .ok (2, [⟨0, .symbol 'a', 1⟩, ⟨1, .symbol 'a', 1⟩, ⟨1, .symbol 'b', 0⟩]) := by decide
  rw [hD] at hshape
  obtain ⟨hcount, htransitions⟩ := Prod.mk.inj (Except.ok.inj hshape)
  exact ⟨D, hD, htwice, hcount, htransitions⟩

end Automaton

end Acceptors
