import Acceptors.Proofs.Comparison
import Acceptors.Proofs.DeterministicTables
import Acceptors.Proofs.Histories

/-!
# Completion

Completion routes every gap of the table to a new state that does not accept and is never left.
Runs of the completed automaton keep the states that runs of the first one keep, and at most the
sink besides.  They never die on words over the alphabet.
-/

namespace Acceptors

/-- The first set holds the members of the second one, but for one state. -/
def StateSet.IsWithout (s t : StateSet) (k : State) : Prop := ∀ q, q ∈ s ↔ q ∈ t ∧ q ≠ k

namespace Automaton

variable {α : Type} {A : Automaton α}

theorem WellFormed.epsilonReach_unknown (wf : A.WellFormed) {p q : State}
    (hp : A.stateCount ≤ p) (h : A.EpsilonReach p q) : p = q := by
  rcases Relation.ReflTransGen.cases_head h with heq | ⟨r, hstep, -⟩
  · exact heq
  · exact absurd (wf.source_lt _ hstep) hp.not_gt

variable [DecidableEq α] {start p q : State} {word : List α}

/-! ## Runs of complete automata -/

theorem WellFormed.advance_ne_empty (wf : A.WellFormed) (full : A.IsComplete) {s : StateSet}
    (hne : s ≠ ∅) (hlt : ∀ q ∈ s, q < A.stateCount) {a : α} (ha : a ∈ A.alphabet) :
    A.advance s a ≠ ∅ := by
  obtain ⟨p, hp⟩ := StateSet.exists_mem_of_ne_empty hne
  obtain ⟨q, ht⟩ := isComplete_iff.1 full p (hlt p hp) a ha
  exact StateSet.nonempty_of_mem (wf.mem_advance.2 ⟨p, hp, q, ht, .refl q⟩)

theorem WellFormed.after_ne_empty (wf : A.WellFormed) (full : A.IsComplete)
    (hlt : start < A.stateCount) (hword : ∀ a ∈ word, a ∈ A.alphabet) :
    A.after start word ≠ ∅ := by
  induction word using List.reverseRecOn with
  | nil => exact wf.closure_start_ne_empty hlt
  | append_singleton word a ih =>
      obtain ⟨hbefore, ha⟩ := List.forall_mem_append.1 hword
      rw [after_concat]
      exact wf.advance_ne_empty full (ih hbefore) (fun q hq => wf.lt_of_mem_after hq)
        (ha a (List.mem_singleton.2 rfl))

/-! ## The completed table -/

theorem perform_complete :
    A.perform .complete = (.ok (.sink A.complete.1), A.complete.2) := by
  rw [perform_eq_editOrKeep]
  rfl

theorem perform_complete_of_isComplete (full : A.IsComplete) :
    A.perform .complete = (.ok (.sink none), A) := by
  rw [perform_complete, complete_of_gaps_eq_nil full]

theorem stateData_complete (hgaps : A.gaps ≠ []) :
    A.complete.2.stateData = A.stateData.push ⟨false, none⟩ := by
  rw [complete_of_gaps_ne_nil hgaps]
  rfl

theorem transitions_complete (hgaps : A.gaps ≠ []) :
    A.complete.2.transitions = A.transitions ++ A.sinkMoves := by
  rw [transitions, recent_complete hgaps, List.reverse_append, List.reverse_reverse, transitions]

section

variable (hgaps : A.gaps ≠ [])

include hgaps

theorem mem_recent_complete_epsilon :
    ⟨p, .epsilon, q⟩ ∈ A.complete.2.recent ↔ ⟨p, .epsilon, q⟩ ∈ A.recent := by
  simp [recent_complete hgaps, mem_sinkMoves]

theorem epsilonReach_complete : A.complete.2.EpsilonReach p q ↔ A.EpsilonReach p q := by
  simp only [EpsilonReach, mem_recent_complete_epsilon hgaps]

theorem isEpsilonFree_complete : A.complete.2.IsEpsilonFree ↔ A.IsEpsilonFree := by
  simp only [isEpsilonFree_iff, mem_recent_complete_epsilon hgaps]

variable (wf : A.WellFormed)

include wf

/-- The sink is where the states, itself among them, move that did not move before. -/
theorem WellFormed.mem_recent_complete {a : α} :
    ⟨p, .symbol a, q⟩ ∈ A.complete.2.recent ↔
      ⟨p, .symbol a, q⟩ ∈ A.recent ∨
        q = A.stateCount ∧ p ≤ A.stateCount ∧ a ∈ A.alphabet ∧
          ∀ r, ⟨p, .symbol a, r⟩ ∉ A.recent := by
  rw [recent_complete hgaps, List.mem_append, List.mem_reverse, mem_sinkMoves, or_comm]
  refine or_congr_right (and_congr_right fun _ => ?_)
  constructor
  · rintro ⟨b, hb, heq, hp⟩
    cases heq
    rcases hp with rfl | hgap
    · exact ⟨le_rfl, hb, fun r ht => Nat.lt_irrefl _ (wf.source_lt _ ht)⟩
    · obtain ⟨hlt, -, hnone⟩ := mem_gaps.1 hgap
      exact ⟨hlt.le, hb, hnone⟩
  · rintro ⟨hle, ha, hnone⟩
    refine ⟨a, ha, rfl, ?_⟩
    rcases hle.lt_or_eq with hlt | heq
    · exact .inr (mem_gaps.2 ⟨hlt, ha, hnone⟩)
    · exact .inl heq

theorem WellFormed.isComplete_complete : A.complete.2.IsComplete := by
  rw [isComplete_iff, stateCount_complete hgaps, (frame_complete A).2.1]
  intro p hp a ha
  by_cases hmove : ∃ q, ⟨p, .symbol a, q⟩ ∈ A.recent
  · obtain ⟨q, ht⟩ := hmove
    exact ⟨q, (wf.mem_recent_complete hgaps).2 (.inl ht)⟩
  · exact ⟨A.stateCount, (wf.mem_recent_complete hgaps).2
      (.inr ⟨rfl, Nat.le_of_lt_succ hp, ha, not_exists.1 hmove⟩)⟩

theorem WellFormed.isDeterministic_complete :
    A.complete.2.IsDeterministic ↔ A.IsDeterministic := by
  rw [wf.complete.isDeterministic_iff_targets, wf.isDeterministic_iff_targets,
    isEpsilonFree_complete hgaps]
  refine and_congr_right fun free => ?_
  constructor
  · intro hone p label q r hq hr
    have hkept : ∀ t ∈ A.recent, t ∈ A.complete.2.recent := by
      intro t ht
      rw [recent_complete hgaps]
      exact List.mem_append_right _ ht
    exact hone p label q r (hkept _ hq) (hkept _ hr)
  · intro hone p label q r hq hr
    cases label with
    | epsilon =>
        exact absurd ((mem_recent_complete_epsilon hgaps).1 hq) (isEpsilonFree_iff.1 free p q)
    | symbol a =>
        rcases (wf.mem_recent_complete hgaps).1 hq with hq | ⟨rfl, -, -, hnone⟩
        · rcases (wf.mem_recent_complete hgaps).1 hr with hr | ⟨-, -, -, hnone⟩
          · exact hone p _ q r hq hr
          · exact absurd hq (hnone q)
        · rcases (wf.mem_recent_complete hgaps).1 hr with hr | ⟨rfl, -⟩
          · exact absurd hr (hnone r)
          · rfl

/-! ## Runs with a sink -/

theorem WellFormed.isWithout_advance {s t : StateSet} (h : s.IsWithout t A.stateCount) (a : α) :
    (A.advance s a).IsWithout (A.complete.2.advance t a) A.stateCount := by
  intro r
  rw [wf.mem_advance, wf.complete.mem_advance]
  simp only [epsilonReach_complete hgaps]
  constructor
  · rintro ⟨p, hp, q, ht, hreach⟩
    have hr : r < A.stateCount := wf.lt_of_epsilonReach hreach (wf.target_lt _ ht)
    have hkept := (wf.mem_recent_complete hgaps).2 (.inl ht)
    exact ⟨⟨p, ((h p).1 hp).1, q, hkept, hreach⟩, hr.ne⟩
  · rintro ⟨⟨p, hp, q, ht, hreach⟩, hne⟩
    rcases (wf.mem_recent_complete hgaps).1 ht with ht | ⟨rfl, -⟩
    · exact ⟨p, (h p).2 ⟨hp, (wf.source_lt _ ht).ne⟩, q, ht, hreach⟩
    · exact absurd (wf.epsilonReach_unknown le_rfl hreach).symm hne

theorem WellFormed.isWithout_after (hlt : start < A.stateCount) (word : List α) :
    (A.after start word).IsWithout (A.complete.2.after start word) A.stateCount := by
  induction word using List.reverseRecOn with
  | nil =>
      have hlt' : start < A.complete.2.stateCount := by
        rw [stateCount_complete hgaps]
        exact Nat.lt_succ_of_lt hlt
      intro q
      rw [after_nil, after_nil, wf.mem_closure_singleton hlt,
        wf.complete.mem_closure_singleton hlt', epsilonReach_complete hgaps]
      exact (and_iff_left_of_imp fun hreach => (wf.lt_of_epsilonReach hreach hlt).ne).symm
  | append_singleton word a ih =>
      rw [after_concat, after_concat]
      exact wf.isWithout_advance hgaps ih a

end

theorem containsAccepting_complete {s t : StateSet} (h : s.IsWithout t A.stateCount) :
    A.complete.2.containsAccepting t = A.containsAccepting s := by
  rw [Bool.eq_iff_iff, containsAccepting_iff, containsAccepting_iff]
  simp only [isAcceptingState_complete]
  constructor
  · rintro ⟨q, hq, haccepting⟩
    exact ⟨q, (h q).2 ⟨hq, (lt_of_isAcceptingState haccepting).ne⟩, haccepting⟩
  · rintro ⟨q, hq, haccepting⟩
    exact ⟨q, ((h q).1 hq).1, haccepting⟩

/--
A complete automaton is left as it is.  Any other one gets a sink, which completes its table, keeps
what the table was before and whether it is deterministic, and shows in no run but as the sink.
-/
theorem perform_complete_routes_gaps (built : A.Built) :
    (A.IsComplete → A.perform .complete = (.ok (.sink none), A)) ∧
    (¬ A.IsComplete → ∃ sink B, A.perform .complete = (.ok (.sink (some sink)), B) ∧
      sink = A.stateCount ∧ B.stateData = A.stateData.push ⟨false, none⟩ ∧
      B.isAccepting sink = .ok false ∧
      B.IsComplete ∧ B.perform .complete = (.ok (.sink none), B) ∧
      B.kind = A.kind ∧ B.start = A.start ∧ B.alphabet = A.alphabet ∧
      A.transitions <+: B.transitions ∧
      (B.IsDeterministic ↔ A.IsDeterministic) ∧ (B.IsEpsilonFree ↔ A.IsEpsilonFree) ∧
      ∀ start, A.start = some start → ∀ word : List α, ∃ active reached,
        A.run word = .ok active ∧ B.run word = .ok reached ∧
        (∀ q, q ∈ active ↔ q ∈ reached ∧ q ≠ sink) ∧
        (∃ accepted, A.accepts word = .ok accepted ∧ B.accepts word = .ok accepted) ∧
        ((∀ a ∈ word, a ∈ A.alphabet) → reached ≠ ∅)) := by
  have wf := built.wellFormed
  refine ⟨perform_complete_of_isComplete, fun hgaps => ?_⟩
  have hperform : A.perform .complete = (.ok (.sink (some A.stateCount)), A.complete.2) := by
    rw [perform_complete, complete_of_gaps_ne_nil hgaps]
  obtain ⟨hkind, halphabet, hstart⟩ := A.frame_complete
  have full := wf.isComplete_complete hgaps
  have hcount := stateCount_complete hgaps
  refine ⟨A.stateCount, A.complete.2, hperform, rfl, stateData_complete hgaps, ?_, full,
    perform_complete_of_isComplete full, hkind, hstart, halphabet,
    ⟨A.sinkMoves, (transitions_complete hgaps).symm⟩, wf.isDeterministic_complete hgaps,
    isEpsilonFree_complete hgaps, ?_⟩
  · rw [isAccepting_eq_ok, isAcceptingState_complete, isAcceptingState_stateCount, hcount]
    exact ⟨Nat.lt_succ_self _, rfl⟩
  · intro start hA word
    have hB : A.complete.2.start = some start := hstart.trans hA
    have hwithout := wf.isWithout_after hgaps (wf.start_lt start hA) word
    refine ⟨_, _, run_of_start hA word, run_of_start hB word, hwithout, ?_, fun hword => ?_⟩
    · refine ⟨_, accepts_of_start hA word, ?_⟩
      rw [accepts_of_start hB, containsAccepting_complete hwithout]
    · refine wf.complete.after_ne_empty full (wf.complete.start_lt start hB) ?_
      rwa [halphabet]

theorem perform_complete_epsilonCycle :
    epsilonCycle.Built ∧ epsilonCycle.start = some 0 ∧ ¬ epsilonCycle.IsComplete ∧
      oneLoop.Built ∧ oneLoop.IsComplete ∧
      oneLoop.perform .complete = (.ok (.sink none), oneLoop) ∧
      ∃ B, epsilonCycle.perform .complete = (.ok (.sink (some 3)), B) ∧ B.IsComplete ∧
        (∃ reached, B.run ['b', 'a'] = .ok reached ∧ reached ≠ ∅ ∧ ∀ q ∈ reached, q = 3) ∧
        B.accepts ['a'] = .ok true := by
  obtain ⟨hkept, -⟩ := perform_complete_routes_gaps built_oneLoop
  obtain ⟨-, hrouted⟩ := perform_complete_routes_gaps built_epsilonCycle
  have hgaps : ¬ epsilonCycle.IsComplete := by decide
  obtain ⟨sink, B, hperform, hsink, -, -, full, -, -, -, -, -, -, -, hruns⟩ := hrouted hgaps
  have hthree : sink = 3 := hsink
  subst hthree
  refine ⟨built_epsilonCycle, rfl, hgaps, built_oneLoop, by decide, hkept (by decide), B, hperform,
    full, ?_, ?_⟩
  · obtain ⟨active, reached, hactive, hreached, hmem, -, hne⟩ := hruns 0 rfl ['b', 'a']
    have hdead : active = ∅ := Except.ok.inj (hactive.symm.trans (by decide))
    refine ⟨reached, hreached, hne (by simp [epsilonCycle]), fun q hq => ?_⟩
    by_contra hother
    exact StateSet.eq_empty_iff.1 hdead q ((hmem q).2 ⟨hq, hother⟩)
  · obtain ⟨-, -, -, -, -, ⟨accepted, hA, hB⟩, -⟩ := hruns 0 rfl ['a']
    have htrue : accepted = true := Except.ok.inj (hA.symm.trans (by decide))
    exact htrue ▸ hB

end Automaton

end Acceptors
