import Acceptors.EpsilonRemoval
import Acceptors.Proofs.ReachedSets

/-!
# Tables of the conversions

The conversions write the tables of their results at once.  This file says which transitions stand
in them, and that the results are as well formed as if each transition had been added by a call.
-/

namespace Acceptors.Automaton

variable {α : Type} [DecidableEq α] {A : Automaton α}

/-! ## Removal of epsilon transitions -/

/-- What the removal gives for a start state. -/
def closedAutomaton (A : Automaton α) (start : State) : Automaton α where
  kind := .nondeterministic
  alphabet := A.alphabet
  start := some start
  stateData := (A.closedStates A.closed).toArray
  recent := (A.closedMoves A.closed).reverse

theorem withoutEpsilon_eq_ok {E : Automaton α} :
    A.withoutEpsilon = .ok E ↔ ∃ q, A.start = some q ∧ E = A.closedAutomaton q := by
  rw [withoutEpsilon, bind_eq_ok]
  constructor
  · rintro ⟨q, hq, hE⟩
    cases hE
    exact ⟨q, initial_eq_ok.1 hq, rfl⟩
  · rintro ⟨q, hq, rfl⟩
    exact ⟨q, initial_eq_ok.2 hq, rfl⟩

@[simp] theorem stateCount_closedAutomaton (start : State) :
    (A.closedAutomaton start).stateCount = A.stateCount := by
  simp [closedAutomaton, stateCount, closedStates, closed, states]

theorem mem_closedMoves {p q : State} {label : Label α} :
    ⟨p, label, q⟩ ∈ A.closedMoves A.closed ↔
      p < A.stateCount ∧ ∃ a ∈ A.alphabet, label = .symbol a ∧
        ∃ r ∈ A.closure [p], ⟨r, .symbol a, q⟩ ∈ A.recent := by
  simp only [closedMoves, closed, List.mem_flatMap, List.mem_map, StateSet.mem_toList,
    StateSet.mem_ofList, Transition.mk.injEq, mem_states, Prod.exists, Prod.mk.injEq]
  constructor
  · rintro ⟨_, _, ⟨_, hp, rfl, rfl⟩, a, ha, _, hq, rfl, rfl, rfl⟩
    exact ⟨hp, a, ha, rfl, mem_moved.1 hq⟩
  · rintro ⟨hp, a, ha, rfl, hq⟩
    exact ⟨p, _, ⟨p, hp, rfl, rfl⟩, a, ha, q, mem_moved.2 hq, rfl, rfl, rfl⟩

theorem nodup_closedMoves (h : A.alphabet.Nodup) : (A.closedMoves A.closed).Nodup := by
  refine nodup_flatMap_of_key Prod.fst Transition.source ?_ ?_ ?_
  · rintro ⟨q, s⟩ - t ht
    simp only [List.mem_flatMap, List.mem_map] at ht
    obtain ⟨a, -, r, -, rfl⟩ := ht
    rfl
  · have hsources : A.closed.map Prod.fst = A.states := by
      simp [closed, Function.comp_def]
    rw [hsources]
    exact List.nodup_range
  · rintro ⟨q, s⟩ -
    refine nodup_flatMap_of_key Label.symbol Transition.label ?_ ?_ ?_
    · intro a _ t ht
      obtain ⟨r, -, rfl⟩ := List.mem_map.1 ht
      rfl
    · exact h.map fun a b => Label.symbol.inj
    · intro a _
      refine List.Nodup.map ?_ ((StateSet.ascending _).imp Nat.ne_of_lt)
      exact fun r r' heq => congrArg Transition.target heq

theorem WellFormed.closedAutomaton (wf : A.WellFormed) {start : State}
    (hstart : A.start = some start) : (A.closedAutomaton start).WellFormed := by
  have hcount : (A.closedAutomaton start).stateCount = A.stateCount :=
    stateCount_closedAutomaton start
  apply wellFormed_of_table
  · exact wf.alphabet_nodup
  · intro q hq
    cases hq
    rw [hcount]
    exact wf.start_lt _ hstart
  · rintro ⟨p, label, q⟩ ht
    obtain ⟨hp, a, ha, rfl, r, -, hr⟩ := mem_closedMoves.1 (List.mem_reverse.1 ht)
    rw [hcount]
    exact ⟨⟨hp, wf.target_lt ⟨r, .symbol a, q⟩ hr⟩, ha⟩
  · exact List.nodup_reverse.2 (nodup_closedMoves wf.alphabet_nodup)

theorem WellFormed.withoutEpsilon (wf : A.WellFormed) {E : Automaton α}
    (h : A.withoutEpsilon = .ok E) : E.WellFormed := by
  obtain ⟨q, hq, rfl⟩ := withoutEpsilon_eq_ok.1 h
  exact wf.closedAutomaton hq

/-! ## Moves between labels -/

/-- The automaton over labels, before completion. -/
def labelAutomaton (A : Automaton α) (naming : Naming) (labels : List StateSet) :
    Automaton α where
  kind := .deterministic
  alphabet := A.alphabet
  start := some 0
  stateData := (A.labelStates naming labels).toArray
  recent := (A.labelMoves labels).reverse

@[simp] theorem stateCount_labelAutomaton (naming : Naming) (labels : List StateSet) :
    (A.labelAutomaton naming labels).stateCount = labels.length := by
  simp [labelAutomaton, stateCount, labelStates]

theorem mem_labelMoves {labels : List StateSet} {p q : State} {label : Label α} :
    ⟨p, label, q⟩ ∈ A.labelMoves labels ↔
      ∃ s, labels[p]? = some s ∧ ∃ a ∈ A.alphabet, label = .symbol a ∧
        labels.idxOf? (A.advance s a) = some q := by
  simp only [labelMoves_eq_flatMap, List.mem_flatMap, List.mem_filterMap, Prod.exists,
    List.mem_zipIdx_iff_getElem?, Option.map_eq_some_iff, Transition.mk.injEq]
  constructor
  · rintro ⟨s, p, hs, a, ha, q, hq, rfl, rfl, rfl⟩
    exact ⟨s, hs, a, ha, rfl, hq⟩
  · rintro ⟨s, hs, a, ha, rfl, hq⟩
    exact ⟨s, p, hs, a, ha, q, hq, rfl, rfl, rfl⟩

theorem nodup_labelMoves (labels : List StateSet) (h : A.alphabet.Nodup) :
    (A.labelMoves labels).Nodup := by
  rw [labelMoves_eq_flatMap]
  refine nodup_flatMap_of_key Prod.snd Transition.source ?_ ?_ ?_
  · rintro ⟨s, p⟩ - t ht
    obtain ⟨a, -, hmove⟩ := List.mem_filterMap.1 ht
    obtain ⟨q, -, rfl⟩ := Option.map_eq_some_iff.1 hmove
    rfl
  · rw [List.zipIdx_map_snd]
    exact List.nodup_range'
  · rintro ⟨s, p⟩ -
    refine List.Nodup.filterMap (fun a b t ha hb => ?_) h
    obtain ⟨q, -, rfl⟩ := Option.map_eq_some_iff.1 ha
    obtain ⟨q', -, heq⟩ := Option.map_eq_some_iff.1 hb
    cases heq
    rfl

theorem WellFormed.labelAutomaton (wf : A.WellFormed) (naming : Naming) {labels : List StateSet}
    (hlabels : 0 < labels.length) : (A.labelAutomaton naming labels).WellFormed := by
  have hcount : (A.labelAutomaton naming labels).stateCount = labels.length :=
    stateCount_labelAutomaton naming labels
  apply wellFormed_of_table
  · exact wf.alphabet_nodup
  · intro q hq
    cases hq
    rw [hcount]
    exact hlabels
  · rintro ⟨p, label, q⟩ ht
    obtain ⟨s, hs, a, ha, rfl, hq⟩ := mem_labelMoves.1 (List.mem_reverse.1 ht)
    obtain ⟨hlt, -⟩ := List.idxOf?_eq_some_iff.1 hq
    rw [hcount]
    exact ⟨⟨(List.getElem?_eq_some_iff.1 hs).1, hlt⟩, ha⟩
  · exact List.nodup_reverse.2 (nodup_labelMoves labels wf.alphabet_nodup)

/-! ## Results of determinization -/

theorem partialDeterminize_eq_ok {naming : Naming} {d : Determinized α} :
    A.partialDeterminize naming = .ok d ↔
      ∃ q, A.start = some q ∧
        d = ⟨A.labelAutomaton naming (A.reachedSets q), A.reachedSets q⟩ := by
  rw [partialDeterminize, bind_eq_ok]
  constructor
  · rintro ⟨q, hq, hd⟩
    cases hd
    exact ⟨q, initial_eq_ok.1 hq, rfl⟩
  · rintro ⟨q, hq, rfl⟩
    exact ⟨q, initial_eq_ok.2 hq, rfl⟩

theorem withSink_eq_ok {naming : Naming} {d e : Determinized α} :
    A.withSink naming d = .ok e ↔
      d.automaton.gaps = [] ∧ e = d ∨
        d.automaton.gaps ≠ [] ∧ e.labels = d.labels ++ [∅] ∧
          d.automaton.complete.2.setName d.automaton.stateCount
            (naming.name A d.automaton.stateCount ∅) = .ok e.automaton := by
  by_cases hgaps : d.automaton.gaps = []
  · simp [withSink, complete_of_gaps_eq_nil, hgaps, @eq_comm _ e]
  · simp only [withSink, complete_of_gaps_ne_nil hgaps, hgaps, false_and, false_or, not_false_eq_true,
      true_and, ne_eq, bind_eq_ok]
    constructor
    · rintro ⟨named, hnamed, he⟩
      cases he
      exact ⟨rfl, hnamed⟩
    · rintro ⟨hlabels, hnamed⟩
      exact ⟨e.automaton, hnamed, by rw [← hlabels]; rfl⟩

theorem exists_withSink (naming : Naming) (d : Determinized α) :
    ∃ e, A.withSink naming d = .ok e := by
  by_cases hgaps : d.automaton.gaps = []
  · exact ⟨d, withSink_eq_ok.2 (.inl ⟨hgaps, rfl⟩)⟩
  · -- The sink is a state of the completed automaton, so that naming it is not refused.
    have hsink : d.automaton.stateCount < d.automaton.complete.2.stateCount := by
      rw [complete_of_gaps_ne_nil hgaps]
      exact Nat.lt_of_lt_of_eq (Nat.lt_succ_self _) stateCount_addState.symm
    exact ⟨⟨_, d.labels ++ [∅]⟩,
      withSink_eq_ok.2 (.inr ⟨hgaps, rfl, modifyState_eq_ok.2 ⟨hsink, rfl⟩⟩)⟩

theorem determinize_eq_ok {complete : Bool} {naming : Naming} {d : Determinized α} :
    A.determinize complete naming = .ok d ↔
      ∃ q, A.start = some q ∧
        ∃ e : Determinized α,
          e = ⟨A.labelAutomaton naming (A.reachedSets q), A.reachedSets q⟩ ∧
            (complete = false ∧ d = e ∨ complete = true ∧ A.withSink naming e = .ok d) := by
  rw [determinize, bind_eq_ok]
  simp only [partialDeterminize_eq_ok]
  constructor
  · rintro ⟨e, ⟨q, hq, he⟩, hd⟩
    refine ⟨q, hq, e, he, ?_⟩
    cases complete with
    | false =>
        cases hd
        exact .inl ⟨rfl, rfl⟩
    | true => exact .inr ⟨rfl, hd⟩
  · rintro ⟨q, hq, e, he, ⟨rfl, rfl⟩ | ⟨rfl, hd⟩⟩
    · exact ⟨d, ⟨q, hq, he⟩, rfl⟩
    · exact ⟨e, ⟨q, hq, he⟩, hd⟩

theorem determinize_cases {q : State} (hstart : A.start = some q) {complete : Bool}
    {naming : Naming} {d : Determinized α} (h : A.determinize complete naming = .ok d) :
    complete = false ∧ d = ⟨A.labelAutomaton naming (A.reachedSets q), A.reachedSets q⟩ ∨
      complete = true ∧
        A.withSink naming ⟨A.labelAutomaton naming (A.reachedSets q), A.reachedSets q⟩ = .ok d := by
  obtain ⟨p, hp, e, rfl, hd⟩ := determinize_eq_ok.1 h
  cases hstart.symm.trans hp
  exact hd

theorem exists_determinize {q : State} (hstart : A.start = some q) (complete : Bool)
    (naming : Naming) : ∃ d, A.determinize complete naming = .ok d := by
  cases complete with
  | false => exact ⟨_, determinize_eq_ok.2 ⟨q, hstart, _, rfl, .inl ⟨rfl, rfl⟩⟩⟩
  | true =>
      obtain ⟨d, hd⟩ := exists_withSink (A := A) naming
        ⟨A.labelAutomaton naming (A.reachedSets q), A.reachedSets q⟩
      exact ⟨d, determinize_eq_ok.2 ⟨q, hstart, _, rfl, .inr ⟨rfl, hd⟩⟩⟩

theorem toDFA_eq_ok {D : Automaton α} :
    A.toDFA = .ok D ↔ ∃ d, A.determinize false .numbered = .ok d ∧ d.automaton = D := by
  simp [toDFA, bind_eq_ok, pure, Except.pure]

theorem WellFormed.determinize (wf : A.WellFormed) {complete : Bool} {naming : Naming}
    {d : Determinized α} (h : A.determinize complete naming = .ok d) :
    d.automaton.WellFormed := by
  obtain ⟨q, -, e, rfl, hd⟩ := determinize_eq_ok.1 h
  have hwf := wf.labelAutomaton naming (wf.reachedSets_length_pos q)
  rcases hd with ⟨-, rfl⟩ | ⟨-, hsink⟩
  · exact hwf
  · obtain ⟨-, rfl⟩ | ⟨-, -, hnamed⟩ := withSink_eq_ok.1 hsink
    · exact hwf
    · exact hwf.complete.modifyState hnamed

end Acceptors.Automaton
