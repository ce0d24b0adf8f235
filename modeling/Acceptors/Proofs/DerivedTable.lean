import Acceptors.Proofs.DerivedStates
import Acceptors.Proofs.DeterministicTables
import Acceptors.Proofs.EpsilonRemoval
import Acceptors.Proofs.Shortlex

/-!
# The table of a determinization

A derived state moves under a symbol to the state that stands for the epsilon closure of what the
members of its label reach, and nowhere else.  The moves are listed by state and then by symbol, and
those to the sink and from it come last.
-/

namespace Acceptors

/-! ## Determinism and completeness -/

namespace Determinized.Follows

variable {α : Type} [DecidableEq α] {d : Determinized α} {A : Automaton α} {start : State}

theorem isEpsilonFree (follows : d.Follows A start) : d.automaton.IsEpsilonFree :=
  follows.wellFormed.isEpsilonFree (by rw [follows.kind_eq]; rfl)

theorem isDeterministic (follows : d.Follows A start) : d.automaton.IsDeterministic := by
  rw [follows.wellFormed.isDeterministic_iff_targets]
  refine ⟨follows.isEpsilonFree, fun p label q r hq hr => ?_⟩
  cases label with
  | symbol a =>
      obtain ⟨-, S, hS, hq⟩ := follows.mem_recent.1 hq
      obtain ⟨-, T, hT, hr⟩ := follows.mem_recent.1 hr
      cases hS.symm.trans hT
      exact follows.label?_inj hq hr
  | epsilon => exact absurd hq (Automaton.isEpsilonFree_iff.1 follows.isEpsilonFree p q)

end Determinized.Follows

namespace Automaton

variable {α : Type} [DecidableEq α] {A : Automaton α} {start : State}

/-- The targets of the members of a set under one symbol. -/
def symbolTargets (A : Automaton α) (s : StateSet) (a : α) : StateSet :=
  .ofList (s.toList.flatMap fun q => A.targets q (.symbol a))

theorem mem_symbolTargets {s : StateSet} {a : α} {r : State} :
    r ∈ A.symbolTargets s a ↔ ∃ q ∈ s, ⟨q, .symbol a, r⟩ ∈ A.recent := by
  rw [symbolTargets, StateSet.mem_ofList, List.mem_flatMap]
  simp only [StateSet.mem_toList, mem_targets]

theorem WellFormed.isClosureOf_symbolTargets (wf : A.WellFormed) (s : StateSet) (a : α) :
    A.IsClosureOf (A.advance s a) (A.symbolTargets s a) := by
  intro r
  simp only [wf.mem_advance, mem_symbolTargets]
  constructor
  · rintro ⟨p, hp, q, ht, hreach⟩
    exact ⟨q, ⟨p, hp, ht⟩, hreach⟩
  · rintro ⟨q, ⟨p, hp, ht⟩, hreach⟩
    exact ⟨p, hp, q, ht, hreach⟩

/-! ## The order of the moves -/

/-- By source, and then by the position of the symbol in the alphabet. -/
def tablePlace (A : Automaton α) (t : Transition α) : ℕ ×ₗ ℕ :=
  toLex (t.source, (A.alphabet.map Label.symbol).idxOf t.label)

theorem tablePlace_lt_iff {t u : Transition α} :
    A.tablePlace t < A.tablePlace u ↔
      t.source < u.source ∨ t.source = u.source ∧
        (A.alphabet.map Label.symbol).idxOf t.label <
          (A.alphabet.map Label.symbol).idxOf u.label :=
  Prod.Lex.toLex_lt_toLex

theorem pairwise_labelMoves (halphabet : A.alphabet.Nodup) (labels : List StateSet) :
    (A.labelMoves labels).Pairwise fun t u => A.tablePlace t < A.tablePlace u := by
  have hcolumns : (A.alphabet.map Label.symbol).Nodup :=
    halphabet.map fun a b => Label.symbol.inj
  have hrows : labels.zipIdx.Pairwise fun row row' => row.2 < row'.2 := by
    rw [← List.pairwise_map, List.zipIdx_map_snd]
    exact List.pairwise_lt_range'
  rw [labelMoves_eq_flatMap, List.pairwise_flatMap]
  simp only [List.mem_filterMap, Option.map_eq_some_iff, tablePlace_lt_iff]
  constructor
  · rintro ⟨S, p⟩ -
    rw [List.pairwise_filterMap]
    refine (List.pairwise_map.1 (pairwise_idxOf_lt hcolumns)).imp fun hlt => ?_
    simp only [Option.map_eq_some_iff]
    rintro _ ⟨q, -, rfl⟩ _ ⟨r, -, rfl⟩
    exact .inr ⟨rfl, hlt⟩
  · refine hrows.imp fun hlt => ?_
    rintro _ ⟨a, -, q, -, rfl⟩ _ ⟨b, -, r, -, rfl⟩
    exact .inl hlt

section

variable {complete : Bool} {naming : Naming} {d : Determinized α} (wf : A.WellFormed)
  (hstart : A.start = some start) (h : A.determinize complete naming = .ok d)

include wf hstart h

/-- The moves between labels come first, and completion adds nothing but moves to the sink. -/
theorem WellFormed.transitions_determinize :
    ∃ late, d.automaton.transitions = A.labelMoves (A.reachedSets start) ++ late ∧
      ∀ t ∈ late, d.sink? = some t.target := by
  have follows := wf.follows_determinize hstart h
  have hpartial : (A.labelAutomaton naming (A.reachedSets start)).transitions =
    A.labelMoves (A.reachedSets start) := List.reverse_reverse _
  rcases determinize_cases hstart h with ⟨-, rfl⟩ | ⟨-, hsink⟩
  · exact ⟨[], by rw [hpartial, List.append_nil], by simp⟩
  · obtain ⟨-, rfl⟩ | ⟨hgaps, hlabels, hnamed⟩ := withSink_eq_ok.1 hsink
    · exact ⟨[], by rw [hpartial, List.append_nil], by simp⟩
    · refine ⟨(A.labelAutomaton naming (A.reachedSets start)).sinkMoves, ?_, ?_⟩
      · obtain ⟨-, -, -, hrecent, -⟩ := frame_modifyState hnamed
        rw [transitions, hrecent, recent_complete hgaps, List.reverse_append,
          List.reverse_reverse, ← hpartial, transitions]
      · rintro ⟨p, label, r⟩ ht
        obtain ⟨rfl, -⟩ := mem_sinkMoves.1 ht
        rw [Determinized.sink?, follows.stateFor?_eq_some, Determinized.label?, hlabels,
          stateCount_labelAutomaton]
        simp

theorem WellFormed.mem_transitions_determinize {s t : State} {S T : StateSet}
    (hS : d.label? s = some S) (hT : d.label? t = some T) {a : α} (ha : a ∈ A.alphabet) :
    ⟨s, .symbol a, t⟩ ∈ d.automaton.transitions ↔ A.IsClosureOf T (A.symbolTargets S a) := by
  have hadvance := wf.isClosureOf_symbolTargets S a
  rw [mem_transitions, (wf.follows_determinize hstart h).mem_recent]
  constructor
  · rintro ⟨-, S', hS', hnext⟩
    cases hS.symm.trans hS'
    cases hT.symm.trans hnext
    exact hadvance
  · intro hclosure
    cases hclosure.unique hadvance
    exact ⟨ha, S, hS, hT⟩

theorem WellFormed.exists_move {s : State} {S : StateSet} (hS : d.label? s = some S) {a : α}
    (ha : a ∈ A.alphabet) (hnext : A.advance S a = ∅ → complete = true) :
    ∃ t, d.label? t = some (A.advance S a) ∧ ⟨s, .symbol a, t⟩ ∈ d.automaton.transitions := by
  have hleads := (wf.leadsTo_of_label hstart h hS).advance ha
  obtain ⟨t, ht⟩ := List.mem_iff_getElem?.1
    ((wf.mem_labels_determinize hstart h).2 ⟨hleads, hnext⟩)
  refine ⟨t, ht, (wf.mem_transitions_determinize hstart h hS ht ha).2 ?_⟩
  exact wf.isClosureOf_symbolTargets S a

theorem WellFormed.moves_only_to_sink_iff {s : State} {S : StateSet} (hS : d.label? s = some S)
    {a : α} (ha : a ∈ A.alphabet) :
    (∀ t, ⟨s, .symbol a, t⟩ ∈ d.automaton.transitions → d.sink? = some t) ↔
      A.symbolTargets S a = ∅ := by
  have follows := wf.follows_determinize hstart h
  have hsink : ∀ {t}, d.sink? = some t ↔ d.label? t = some ∅ := follows.stateFor?_eq_some
  rw [(wf.isClosureOf_symbolTargets S a).eq_empty_iff]
  constructor
  · intro hall
    by_contra hne
    obtain ⟨t, ht, hmove⟩ := wf.exists_move hstart h hS ha fun hempty => absurd hempty hne
    exact hne (Option.some.inj (ht.symm.trans (hsink.1 (hall t hmove))))
  · intro hempty t ht
    obtain ⟨-, S', hS', hnext⟩ := follows.mem_recent.1 (mem_transitions.1 ht)
    cases hS.symm.trans hS'
    exact hsink.2 (hnext.trans (congrArg some hempty))

theorem WellFormed.pairwise_transitions_determinize :
    (d.automaton.transitions.filter fun t =>
      d.sink? ≠ some t.source ∧ d.sink? ≠ some t.target).Pairwise
        fun t u => A.tablePlace t < A.tablePlace u := by
  obtain ⟨late, htransitions, hlate⟩ := wf.transitions_determinize hstart h
  have hnone : (late.filter fun t => d.sink? ≠ some t.source ∧ d.sink? ≠ some t.target) = [] := by
    refine List.filter_eq_nil_iff.2 fun t ht => ?_
    simp [hlate t ht]
  rw [htransitions, List.filter_append, hnone, List.append_nil]
  exact (pairwise_labelMoves wf.alphabet_nodup _).filter _

theorem WellFormed.isComplete_determinize (hcomplete : complete = true) :
    d.automaton.IsComplete := by
  have follows := wf.follows_determinize hstart h
  refine isComplete_iff.2 fun s hs a ha => ?_
  rw [follows.alphabet_eq] at ha
  obtain ⟨S, hS⟩ := follows.exists_label hs
  obtain ⟨t, -, hmove⟩ := wf.exists_move hstart h hS ha fun _ => hcomplete
  exact ⟨t, mem_transitions.1 hmove⟩

end

/-- The derived states move as their labels do, and each symbol leads to at most one of them. -/
theorem determinize_table (built : A.Built) (hstart : A.start = some start) (complete : Bool)
    (naming : Naming) :
    ∃ d, A.determinize complete naming = .ok d ∧ d.automaton.alphabet = A.alphabet ∧
      d.automaton.IsDeterministic ∧ d.automaton.IsEpsilonFree ∧
      (∀ s ∈ d.automaton.states, ∃ S, d.label? s = some S) ∧
      (∀ s t S T, d.label? s = some S → d.label? t = some T → ∀ a ∈ A.alphabet,
        (⟨s, .symbol a, t⟩ ∈ d.automaton.transitions ↔
          A.IsClosureOf T (A.symbolTargets S a))) ∧
      (∀ s S, d.label? s = some S → ∀ a ∈ A.alphabet,
        ((∀ t, ⟨s, .symbol a, t⟩ ∈ d.automaton.transitions → d.sink? = some t) ↔
          A.symbolTargets S a = ∅)) ∧
      (d.automaton.transitions.filter fun t =>
        d.sink? ≠ some t.source ∧ d.sink? ≠ some t.target).Pairwise
          (fun t u => A.tablePlace t < A.tablePlace u) ∧
      (complete = true → d.automaton.IsComplete ∧
        d.automaton.transitionCount = d.automaton.stateCount * A.alphabet.length) := by
  have wf := built.wellFormed
  obtain ⟨d, hd⟩ := exists_determinize hstart complete naming
  have follows := wf.follows_determinize hstart hd
  refine ⟨d, hd, follows.alphabet_eq, follows.isDeterministic, follows.isEpsilonFree, ?_, ?_, ?_,
    wf.pairwise_transitions_determinize hstart hd, fun hcomplete => ?_⟩
  · exact fun s hs => follows.exists_label (mem_states.1 hs)
  · exact fun s t S T hS hT a ha => wf.mem_transitions_determinize hstart hd hS hT ha
  · exact fun s S hS a ha => wf.moves_only_to_sink_iff hstart hd hS ha
  · have full := wf.isComplete_determinize hstart hd hcomplete
    refine ⟨full, ?_⟩
    rw [follows.wellFormed.transitionCount_eq follows.isDeterministic full, follows.alphabet_eq]

theorem determinize_table_epsilonCycle :
    epsilonCycle.Built ∧ epsilonCycle.start = some 0 ∧
      ∃ d, epsilonCycle.determinize true .numbered = .ok d ∧ d.automaton.IsDeterministic ∧
        d.sink? = some 2 ∧
        epsilonCycle.IsClosureOf (.ofList [0, 1, 2])
          (epsilonCycle.symbolTargets (.ofList [0, 1]) 'a') ∧
        epsilonCycle.symbolTargets (.ofList [0, 1]) 'b' = ∅ ∧
        d.automaton.transitionCount = d.automaton.stateCount * 2 := by
  refine ⟨built_epsilonCycle, rfl, ?_⟩
  obtain ⟨d, hd, -, hdeterministic, -, -, hmoves, hnone, -, hfull⟩ :=
    determinize_table built_epsilonCycle rfl true .numbered
  have hshape : (epsilonCycle.determinize true .numbered).map
      (fun d => (d.labels, d.automaton.transitions)) =
        .ok ([.ofList [0, 1], .ofList [0, 1, 2], ∅],
          [⟨0, .symbol 'a', 1⟩, ⟨1, .symbol 'a', 1⟩, ⟨1, .symbol 'b', 0⟩, ⟨0, .symbol 'b', 2⟩,
            ⟨2, .symbol 'a', 2⟩, ⟨2, .symbol 'b', 2⟩]) := by decide
  rw [hd] at hshape
  obtain ⟨hlabels, htransitions⟩ := Prod.mk.inj (Except.ok.inj hshape)
  have hlabel : ∀ s, d.label? s = ([.ofList [0, 1], .ofList [0, 1, 2], ∅] : List StateSet)[s]? :=
    fun s => congrArg (·[s]?) hlabels
  have hsink : d.sink? = some 2 := by
    rw [Determinized.sink?, Determinized.stateFor?, hlabels]
    decide
  refine ⟨d, hd, hdeterministic, hsink, ?_, ?_, (hfull rfl).2⟩
  · refine (hmoves 0 1 _ _ (hlabel 0) (hlabel 1) 'a' (by decide)).1 ?_
    rw [htransitions]
    decide
  · refine (hnone 0 _ (hlabel 0) 'b' (by decide)).1 ?_
    rw [htransitions, hsink]
    simp

end Automaton

end Acceptors
