import Acceptors.Proofs.Built
import Acceptors.Proofs.Runs

/-!
# Runs without epsilon transitions

After the removal a run keeps sets that are not closed, while the source keeps their closures.
`IsClosureOf` relates the two; every step keeps the relation, so that every word leads to related
sets and both automata accept the same words.
-/

namespace Acceptors.Automaton

variable {α : Type} [DecidableEq α] {A : Automaton α}

/-! ## The automaton without epsilon transitions -/

theorem WellFormed.mem_recent_closedAutomaton (wf : A.WellFormed) {start p q : State}
    {label : Label α} :
    ⟨p, label, q⟩ ∈ (A.closedAutomaton start).recent ↔
      ∃ a, label = .symbol a ∧ ∃ r, A.EpsilonReach p r ∧ ⟨r, .symbol a, q⟩ ∈ A.recent := by
  have hrecent : (A.closedAutomaton start).recent = (A.closedMoves A.closed).reverse := rfl
  rw [hrecent, List.mem_reverse, mem_closedMoves]
  constructor
  · rintro ⟨hp, a, -, rfl, r, hr, ht⟩
    exact ⟨a, rfl, r, (wf.mem_closure_singleton hp).1 hr, ht⟩
  · rintro ⟨a, rfl, r, hreach, ht⟩
    have hp := wf.lt_source_of_epsilonReach hreach (wf.source_lt _ ht)
    exact ⟨hp, a, wf.label_permitted _ ht, rfl, r, (wf.mem_closure_singleton hp).2 hreach, ht⟩

theorem getElem?_stateData_closedAutomaton {start q : State} (hq : q < A.stateCount) :
    (A.closedAutomaton start).stateData[q]? =
      some ⟨A.containsAccepting (A.closure [q]), A.name? q⟩ := by
  have harray : (A.closedAutomaton start).stateData =
    (A.closedStates A.closed).toArray := rfl
  simp only [harray, List.getElem?_toArray, closedStates, closed, states, List.getElem?_map,
    List.getElem?_range hq]
  rfl

theorem WellFormed.isAcceptingState_closedAutomaton (wf : A.WellFormed) {start q : State} :
    (A.closedAutomaton start).isAcceptingState q ↔
      ∃ r, A.EpsilonReach q r ∧ A.isAcceptingState r := by
  by_cases hq : q < A.stateCount
  · rw [isAcceptingState, getElem?_stateData_closedAutomaton hq]
    simp only [containsAccepting_iff, wf.mem_closure_singleton hq]
  · constructor
    · intro h
      have hlt := lt_of_isAcceptingState h
      rw [stateCount_closedAutomaton] at hlt
      exact absurd hlt hq
    · rintro ⟨r, hreach, hr⟩
      exact absurd (wf.lt_source_of_epsilonReach hreach (lt_of_isAcceptingState hr)) hq

theorem WellFormed.epsilonReach_closedAutomaton (wf : A.WellFormed) {start p q : State}
    (hstart : A.start = some start) : (A.closedAutomaton start).EpsilonReach p q ↔ p = q :=
  ((wf.closedAutomaton hstart).isEpsilonFree rfl).epsilonReach_iff

theorem WellFormed.mem_advance_closedAutomaton (wf : A.WellFormed) {start : State}
    (hstart : A.start = some start) {t : StateSet} {a : α} {r : State} :
    r ∈ (A.closedAutomaton start).advance t a ↔
      ∃ p ∈ t, ∃ q, A.EpsilonReach p q ∧ ⟨q, .symbol a, r⟩ ∈ A.recent := by
  rw [(wf.closedAutomaton hstart).mem_advance]
  simp only [wf.epsilonReach_closedAutomaton hstart, wf.mem_recent_closedAutomaton]
  constructor
  · rintro ⟨p, hp, _, ⟨b, hb, q, hreach, ht⟩, rfl⟩
    cases hb
    exact ⟨p, hp, q, hreach, ht⟩
  · rintro ⟨p, hp, q, hreach, ht⟩
    exact ⟨p, hp, r, ⟨a, rfl, q, hreach, ht⟩, rfl⟩

/-! ## The relation between the runs -/

/-- The first set holds what epsilon transitions lead to from the second. -/
def IsClosureOf (A : Automaton α) (s t : StateSet) : Prop :=
  ∀ r, r ∈ s ↔ ∃ p ∈ t, A.EpsilonReach p r

omit [DecidableEq α] in
theorem IsClosureOf.unique {s s' t : StateSet} (h : A.IsClosureOf s t) (h' : A.IsClosureOf s' t) :
    s = s' :=
  StateSet.ext fun r => (h r).trans (h' r).symm

omit [DecidableEq α] in
theorem IsClosureOf.eq_empty_iff {s t : StateSet} (h : A.IsClosureOf s t) : t = ∅ ↔ s = ∅ := by
  simp only [StateSet.eq_empty_iff]
  constructor
  · intro ht r hr
    obtain ⟨p, hp, -⟩ := (h r).1 hr
    exact ht p hp
  · exact fun hs p hp => hs p ((h p).2 ⟨p, hp, .refl p⟩)

theorem WellFormed.isClosureOf_iff (wf : A.WellFormed) {s t : StateSet}
    (ht : ∀ q ∈ t, q < A.stateCount) : A.IsClosureOf s t ↔ s = A.closure t.toList := by
  have hmem : ∀ r, r ∈ A.closure t.toList ↔ ∃ p ∈ t, A.EpsilonReach p r := by
    intro r
    rw [wf.mem_closure]
    constructor
    · rintro ⟨p, hp, -, hreach⟩
      exact ⟨p, hp, hreach⟩
    · rintro ⟨p, hp, hreach⟩
      exact ⟨p, hp, ht p hp, hreach⟩
  constructor
  · exact fun h => StateSet.ext fun r => (h r).trans (hmem r).symm
  · rintro rfl
    exact hmem

theorem WellFormed.isClosureOf_advance (wf : A.WellFormed) {start : State}
    (hstart : A.start = some start) {s t : StateSet} (h : A.IsClosureOf s t) (a : α) :
    A.IsClosureOf (A.advance s a) ((A.closedAutomaton start).advance t a) := by
  intro r
  rw [wf.mem_advance]
  simp only [wf.mem_advance_closedAutomaton hstart]
  constructor
  · rintro ⟨p, hp, q, ht, hreach⟩
    obtain ⟨p', hp', hreach'⟩ := (h p).1 hp
    exact ⟨q, ⟨p', hp', p, hreach', ht⟩, hreach⟩
  · rintro ⟨q, ⟨p', hp', p, hreach', ht⟩, hreach⟩
    exact ⟨p, (h p).2 ⟨p', hp', hreach'⟩, q, ht, hreach⟩

theorem WellFormed.isClosureOf_after (wf : A.WellFormed) {start : State}
    (hstart : A.start = some start) (word : List α) :
    A.IsClosureOf (A.after start word) ((A.closedAutomaton start).after start word) := by
  induction word using List.reverseRecOn with
  | nil =>
      have hlt := wf.start_lt start hstart
      intro r
      simp only [after_nil, wf.mem_closure_singleton hlt, wf.epsilonReach_closedAutomaton hstart,
        (wf.closedAutomaton hstart).mem_closure_singleton
          (hlt.trans_eq (stateCount_closedAutomaton start).symm)]
      simp
  | append_singleton word a ih =>
      rw [after_concat, after_concat]
      exact wf.isClosureOf_advance hstart ih a

theorem WellFormed.containsAccepting_closedAutomaton (wf : A.WellFormed) {start : State}
    {s t : StateSet} (h : A.IsClosureOf s t) :
    (A.closedAutomaton start).containsAccepting t = A.containsAccepting s := by
  rw [Bool.eq_iff_iff, containsAccepting_iff, containsAccepting_iff]
  simp only [wf.isAcceptingState_closedAutomaton]
  constructor
  · rintro ⟨p, hp, r, hreach, hr⟩
    exact ⟨r, (h r).2 ⟨p, hp, hreach⟩, hr⟩
  · rintro ⟨r, hr, haccepting⟩
    obtain ⟨p, hp, hreach⟩ := (h r).1 hr
    exact ⟨p, hp, r, hreach, haccepting⟩

/-- The removal keeps the run of every word up to closure, and with it what is accepted. -/
theorem run_withoutEpsilon (built : A.Built) {start : State} (hstart : A.start = some start) :
    ∃ E, A.withoutEpsilon = .ok E ∧ ∀ word : List α, ∃ active kept,
      A.run word = .ok active ∧ E.run word = .ok kept ∧
        A.epsilonClosure kept = .ok active ∧ (kept = ∅ ↔ active = ∅) ∧
        ∃ accepted, A.accepts word = .ok accepted ∧ E.accepts word = .ok accepted := by
  have wf := built.wellFormed
  refine ⟨A.closedAutomaton start, withoutEpsilon_eq_ok.2 ⟨start, hstart, rfl⟩, fun word => ?_⟩
  have hclosure := wf.isClosureOf_after hstart word
  have hkept : ∀ q ∈ (A.closedAutomaton start).after start word, q < A.stateCount := by
    intro q hq
    rw [← stateCount_closedAutomaton start]
    exact (wf.closedAutomaton hstart).lt_of_mem_after hq
  refine ⟨A.after start word, (A.closedAutomaton start).after start word,
    run_of_start hstart word, run_of_start rfl word, ?_, hclosure.eq_empty_iff, ?_⟩
  · exact epsilonClosure_eq_ok.2 ⟨hkept, (wf.isClosureOf_iff hkept).1 hclosure⟩
  · refine ⟨_, accepts_of_start hstart word, ?_⟩
    rw [accepts_of_start rfl word, wf.containsAccepting_closedAutomaton hclosure]

theorem run_withoutEpsilon_epsilonCycle :
    epsilonCycle.Built ∧ epsilonCycle.start = some 0 ∧
      ∃ E, epsilonCycle.withoutEpsilon = .ok E ∧ ∃ kept, E.run ['a'] = .ok kept ∧
        epsilonCycle.epsilonClosure kept = .ok (.ofList [0, 1, 2]) ∧ E.accepts ['a'] = .ok true := by
  refine ⟨built_epsilonCycle, rfl, ?_⟩
  obtain ⟨E, hE, hruns⟩ := run_withoutEpsilon built_epsilonCycle rfl
  obtain ⟨active, kept, hactive, hkept, hclosure, -, accepted, haccepted, hsame⟩ := hruns ['a']
  have hset : active = .ofList [0, 1, 2] := Except.ok.inj (hactive.symm.trans (by decide))
  have htrue : accepted = true := Except.ok.inj (haccepted.symm.trans (by decide))
  exact ⟨E, hE, kept, hkept, hset ▸ hclosure, htrue ▸ hsame⟩

end Acceptors.Automaton
