import Acceptors.Proofs.DerivedRuns
import Acceptors.Proofs.DeterministicTables
import Acceptors.Proofs.EpsilonRemoval

/-!
# Two routes to a deterministic automaton

An automaton can be determinized at once, or after its epsilon transitions were removed.  The first
way keeps closed sets and the second way sets that are not closed, of which several may have one
closure.  So the first determinization is the image of the second one under the map that closes the
labels, and it has no more states.
-/

namespace Acceptors

namespace Automaton

variable {α : Type} [DecidableEq α] {A D D' : Automaton α} {start : State}

/-- The map carries one automaton onto another, with its start, accepting states and moves. -/
structure MapsOnto (h : State → State) (D D' : Automaton α) : Prop where
  alphabet_eq : D'.alphabet = D.alphabet
  lt_of_lt : ∀ s < D.stateCount, h s < D'.stateCount
  onto : ∀ t < D'.stateCount, ∃ s < D.stateCount, h s = t
  start_eq : D'.start = D.start.map h
  accepting_iff : ∀ s < D.stateCount,
    (D.isAccepting s = .ok true ↔ D'.isAccepting (h s) = .ok true)
  targets_eq : ∀ s < D.stateCount, ∀ a ∈ D.alphabet,
    D'.targets (h s) (.symbol a) = (D.targets s (.symbol a)).map h

theorem MapsOnto.stateCount_le {h : State → State} (onto : MapsOnto h D D') :
    D'.stateCount ≤ D.stateCount := by
  have hsubset : D'.states ⊆ D.states.map h := by
    intro t ht
    obtain ⟨s, hs, rfl⟩ := onto.onto t (mem_states.1 ht)
    exact List.mem_map.2 ⟨s, mem_states.2 hs, rfl⟩
  have hle := (List.subperm_of_subset List.nodup_range hsubset).length_le
  simpa [states] using hle

end Automaton

namespace Determinized.Follows

variable {α : Type} [DecidableEq α] {d : Determinized α} {A : Automaton α} {start : State}

theorem targets_eq (follows : d.Follows A start) {s : State} {S : StateSet}
    (hs : d.label? s = some S) {a : α} (ha : a ∈ A.alphabet) :
    d.automaton.targets s (.symbol a) = (d.stateFor? (A.advance S a)).toList := by
  have hmem : ∀ t, t ∈ d.automaton.targets s (.symbol a) ↔
      d.stateFor? (A.advance S a) = some t := by
    intro t
    rw [Automaton.mem_targets, follows.mem_recent, follows.stateFor?_eq_some]
    constructor
    · rintro ⟨-, T, hT, ht⟩
      cases hs.symm.trans hT
      exact ht
    · exact fun ht => ⟨ha, S, hs, ht⟩
  cases hstate : d.stateFor? (A.advance S a) with
  | none =>
      apply List.eq_nil_iff_forall_not_mem.2
      intro t ht
      simpa [hstate] using (hmem t).1 ht
  | some t =>
      have hperm : (d.automaton.targets s (.symbol a)).Perm [t] := by
        rw [List.perm_ext_iff_of_nodup (follows.wellFormed.nodup_targets s _) (by simp)]
        intro u
        rw [hmem, hstate, Option.some.injEq, List.mem_singleton, eq_comm]
      exact List.perm_singleton.1 hperm

end Determinized.Follows

namespace Automaton

variable {α : Type} [DecidableEq α] {A E : Automaton α} {start : State} {S T : StateSet}

/-! ## The sets of both routes -/

/-- The sets of the source are the closures of those that are kept without epsilon transitions. -/
theorem WellFormed.leadsTo_iff_closedAutomaton (wf : A.WellFormed) (hstart : A.start = some start) :
    A.LeadsTo start S ↔ ∃ T, (A.closedAutomaton start).LeadsTo start T ∧ A.IsClosureOf S T := by
  constructor
  · intro hS
    obtain ⟨word, hword, rfl⟩ := leadsTo_iff_after.1 hS
    exact ⟨_, leadsTo_after hword, wf.isClosureOf_after hstart word⟩
  · rintro ⟨T, hT, hclosure⟩
    obtain ⟨word, hword, rfl⟩ := leadsTo_iff_after.1 hT
    rw [hclosure.unique (wf.isClosureOf_after hstart word)]
    exact leadsTo_after hword

theorem WellFormed.exists_isClosureOf (wf : A.WellFormed) (hstart : A.start = some start)
    (hT : (A.closedAutomaton start).LeadsTo start T) : ∃ S, A.IsClosureOf S T := by
  obtain ⟨word, -, rfl⟩ := leadsTo_iff_after.1 hT
  exact ⟨_, wf.isClosureOf_after hstart word⟩

/-! ## The derived states of both routes -/

/-- The state `t` stands for the closure of what `s` stands for. -/
def Closes (A : Automaton α) (dE dA : Determinized α) (s t : State) : Prop :=
  ∃ T S, dE.label? s = some T ∧ dA.label? t = some S ∧ A.IsClosureOf S T

section

variable {dA dE : Determinized α} (wf : A.WellFormed) (hstart : A.start = some start)
  (hA : A.determinize false .numbered = .ok dA)
  (hE : (A.closedAutomaton start).determinize false .numbered = .ok dE)

include wf hstart hA hE

/-- A set without epsilon transitions has a state exactly if its closure has one. -/
theorem WellFormed.closes_of_leadsTo (hS : A.LeadsTo start S)
    (hT : (A.closedAutomaton start).LeadsTo start T) (hclosure : A.IsClosureOf S T) :
    dE.stateFor? T = none ∧ dA.stateFor? S = none ∨
      ∃ s t, dE.stateFor? T = some s ∧ dA.stateFor? S = some t ∧ A.Closes dE dA s t := by
  have wfE := wf.closedAutomaton hstart
  have followsA := wf.follows_determinize hstart hA
  have followsE := wfE.follows_determinize rfl hE
  have hmemA := wf.mem_labels_iff_ne_empty hstart hA rfl hS
  have hmemE := wfE.mem_labels_iff_ne_empty rfl hE rfl hT
  by_cases hempty : T = ∅
  · refine .inl ⟨List.idxOf?_eq_none_iff.2 ?_, List.idxOf?_eq_none_iff.2 ?_⟩
    · exact fun hmem => hmemE.1 hmem hempty
    · exact fun hmem => hmemA.1 hmem (hclosure.eq_empty_iff.1 hempty)
  · obtain ⟨s, hs⟩ := List.mem_iff_getElem?.1 (hmemE.2 hempty)
    obtain ⟨t, ht⟩ := List.mem_iff_getElem?.1 (hmemA.2 (mt hclosure.eq_empty_iff.2 hempty))
    exact .inr ⟨s, t, followsE.stateFor?_eq_some.2 hs, followsA.stateFor?_eq_some.2 ht,
      T, S, hs, ht, hclosure⟩

theorem WellFormed.exists_closes_of_lt {s : State} (hs : s < dE.automaton.stateCount) :
    ∃ t, A.Closes dE dA s t := by
  have wfE := wf.closedAutomaton hstart
  have followsE := wfE.follows_determinize rfl hE
  obtain ⟨T, hT⟩ := followsE.exists_label hs
  have hleads := wfE.leadsTo_of_label rfl hE hT
  obtain ⟨S, hclosure⟩ := wf.exists_isClosureOf hstart hleads
  have hleads' := (wf.leadsTo_iff_closedAutomaton hstart).2 ⟨T, hleads, hclosure⟩
  obtain ⟨hnone, -⟩ | ⟨s', t, hs', -, hcloses⟩ :=
    wf.closes_of_leadsTo hstart hA hE hleads' hleads hclosure
  · rw [followsE.stateFor?_eq_some.2 hT] at hnone
    contradiction
  · cases (followsE.stateFor?_eq_some.2 hT).symm.trans hs'
    exact ⟨t, hcloses⟩

theorem WellFormed.exists_closes_onto {t : State} (ht : t < dA.automaton.stateCount) :
    ∃ s, A.Closes dE dA s t := by
  have followsA := wf.follows_determinize hstart hA
  obtain ⟨S, hS⟩ := followsA.exists_label ht
  have hleads := wf.leadsTo_of_label hstart hA hS
  obtain ⟨T, hleads', hclosure⟩ := (wf.leadsTo_iff_closedAutomaton hstart).1 hleads
  obtain ⟨-, hnone⟩ | ⟨s, t', -, ht', hcloses⟩ :=
    wf.closes_of_leadsTo hstart hA hE hleads hleads' hclosure
  · rw [followsA.stateFor?_eq_some.2 hS] at hnone
    contradiction
  · cases (followsA.stateFor?_eq_some.2 hS).symm.trans ht'
    exact ⟨s, hcloses⟩

omit hE in
theorem WellFormed.closes_unique {s t t' : State} (h : A.Closes dE dA s t)
    (h' : A.Closes dE dA s t') : t = t' := by
  obtain ⟨T, S, hT, hS, hclosure⟩ := h
  obtain ⟨T', S', hT', hS', hclosure'⟩ := h'
  cases hT.symm.trans hT'
  rw [hclosure'.unique hclosure] at hS'
  exact (wf.follows_determinize hstart hA).label?_inj hS hS'

theorem WellFormed.lt_of_closes {s t : State} (h : A.Closes dE dA s t) :
    s < dE.automaton.stateCount ∧ t < dA.automaton.stateCount := by
  obtain ⟨T, S, hT, hS, -⟩ := h
  rw [((wf.closedAutomaton hstart).follows_determinize rfl hE).stateCount_eq,
    (wf.follows_determinize hstart hA).stateCount_eq]
  exact ⟨(List.getElem?_eq_some_iff.1 hT).1, (List.getElem?_eq_some_iff.1 hS).1⟩

theorem WellFormed.closes_start : A.Closes dE dA 0 0 := by
  have wfE := wf.closedAutomaton hstart
  exact ⟨_, _, (wfE.follows_determinize rfl hE).labels_zero,
    (wf.follows_determinize hstart hA).labels_zero, wf.isClosureOf_after hstart []⟩

theorem WellFormed.isAccepting_iff_of_closes {s t : State} (h : A.Closes dE dA s t) :
    dE.automaton.isAccepting s = .ok true ↔ dA.automaton.isAccepting t = .ok true := by
  obtain ⟨T, S, hT, hS, hclosure⟩ := h
  rw [isAccepting_eq_ok_true, isAccepting_eq_ok_true,
    ((wf.closedAutomaton hstart).follows_determinize rfl hE).accepting_eq hT,
    (wf.follows_determinize hstart hA).accepting_eq hS,
    wf.containsAccepting_closedAutomaton hclosure]

/-- States in the relation have moves under the same symbols, to states in the relation. -/
theorem WellFormed.targets_of_closes {s t : State} (h : A.Closes dE dA s t) {a : α}
    (ha : a ∈ A.alphabet) :
    dE.automaton.targets s (.symbol a) = [] ∧ dA.automaton.targets t (.symbol a) = [] ∨
      ∃ s' t', dE.automaton.targets s (.symbol a) = [s'] ∧
        dA.automaton.targets t (.symbol a) = [t'] ∧ A.Closes dE dA s' t' := by
  have wfE := wf.closedAutomaton hstart
  have followsA := wf.follows_determinize hstart hA
  have followsE := wfE.follows_determinize rfl hE
  obtain ⟨T, S, hT, hS, hclosure⟩ := h
  have hleads := wf.leadsTo_of_label hstart hA hS
  have hleads' := wfE.leadsTo_of_label rfl hE hT
  have hstep := wf.isClosureOf_advance hstart hclosure a
  rw [followsE.targets_eq hT ha, followsA.targets_eq hS ha]
  obtain ⟨hs, ht⟩ | ⟨s', t', hs', ht', hcloses⟩ :=
    wf.closes_of_leadsTo hstart hA hE (hleads.advance ha) (hleads'.advance ha) hstep
  · exact .inl ⟨by rw [hs]; rfl, by rw [ht]; rfl⟩
  · exact .inr ⟨s', t', by rw [hs']; rfl, by rw [ht']; rfl, hcloses⟩

theorem WellFormed.mapsOnto_of_closes {h : State → State}
    (hcloses : ∀ s < dE.automaton.stateCount, A.Closes dE dA s (h s)) :
    MapsOnto h dE.automaton dA.automaton := by
  have followsA := wf.follows_determinize hstart hA
  have followsE := (wf.closedAutomaton hstart).follows_determinize rfl hE
  have hunique : ∀ {s t : State}, A.Closes dE dA s t → h s = t := fun hst =>
    wf.closes_unique hstart hA (hcloses _ (wf.lt_of_closes hstart hA hE hst).1) hst
  constructor
  · rw [followsA.alphabet_eq, followsE.alphabet_eq]
    rfl
  · exact fun s hs => (wf.lt_of_closes hstart hA hE (hcloses s hs)).2
  · intro t ht
    obtain ⟨s, hst⟩ := wf.exists_closes_onto hstart hA hE ht
    exact ⟨s, (wf.lt_of_closes hstart hA hE hst).1, hunique hst⟩
  · rw [followsA.start_eq, followsE.start_eq, Option.map_some,
      hunique (wf.closes_start hstart hA hE)]
  · exact fun s hs => wf.isAccepting_iff_of_closes hstart hA hE (hcloses s hs)
  · intro s hs a ha
    rw [followsE.alphabet_eq] at ha
    obtain ⟨hnone, hnone'⟩ | ⟨s', t', hs', ht', hnext⟩ :=
      wf.targets_of_closes hstart hA hE (hcloses s hs) ha
    · rw [hnone, hnone']
      rfl
    · rw [hs', ht', List.map_singleton, hunique hnext]

end

/--
Determinizing after the removal of epsilon transitions gives an automaton that the determinization
of the source is an image of: each state goes to that of the closure of its label.
-/
theorem mapsOnto_determinize_withoutEpsilon (built : A.Built) (hstart : A.start = some start) :
    ∃ E dA dE h, A.withoutEpsilon = .ok E ∧ A.determinize false .numbered = .ok dA ∧
      E.determinize false .numbered = .ok dE ∧ MapsOnto h dE.automaton dA.automaton ∧
      (∀ s < dE.automaton.stateCount, ∃ T S, dE.label? s = some T ∧
        A.epsilonClosure T = .ok S ∧ dA.label? (h s) = some S) ∧
      A.toDFA = .ok dA.automaton ∧ E.toDFA = .ok dE.automaton ∧
        dA.automaton.stateCount ≤ dE.automaton.stateCount := by
  have wf := built.wellFormed
  have wfE := wf.closedAutomaton hstart
  obtain ⟨dA, hA⟩ := exists_determinize hstart false .numbered
  obtain ⟨dE, hE⟩ := exists_determinize (A := A.closedAutomaton start) rfl false .numbered
  -- Labels of the second route whose closures are equal go to one state.
  choose! h hcloses using fun s => wf.exists_closes_of_lt (s := s) hstart hA hE
  have honto := wf.mapsOnto_of_closes hstart hA hE hcloses
  refine ⟨A.closedAutomaton start, dA, dE, h, withoutEpsilon_eq_ok.2 ⟨start, hstart, rfl⟩, hA, hE,
    honto, ?_, toDFA_eq_ok.2 ⟨dA, hA, rfl⟩, toDFA_eq_ok.2 ⟨dE, hE, rfl⟩, honto.stateCount_le⟩
  intro s hs
  obtain ⟨T, S, hT, hS, hclosure⟩ := hcloses s hs
  have hkept : ∀ q ∈ T, q < A.stateCount := by
    rw [← stateCount_closedAutomaton start]
    exact wfE.lt_of_leadsTo (wfE.leadsTo_of_label rfl hE hT)
  exact ⟨T, S, hT, epsilonClosure_eq_ok.2 ⟨hkept, (wf.isClosureOf_iff hkept).1 hclosure⟩, hS⟩

/-- Two ways out of the start that epsilon transitions join again. -/
def joined : Automaton Char where
  kind := .epsilonNondeterministic
  alphabet := ['a', 'b']
  start := some 0
  stateData := #[⟨false, none⟩, ⟨true, none⟩, ⟨false, none⟩]
  recent := [⟨2, .epsilon, 1⟩, ⟨1, .epsilon, 2⟩, ⟨0, .symbol 'b', 2⟩, ⟨0, .symbol 'a', 1⟩]

theorem built_joined : joined.Built := by
  have hedits : (empty .epsilonNondeterministic ['a', 'b']).editAll [.addState ⟨false, none⟩,
      .addState ⟨true, none⟩, .addState ⟨false, none⟩, .setStart 0,
      .addTransition 0 (.symbol 'a') 1, .addTransition 0 (.symbol 'b') 2,
      .addTransition 1 .epsilon 2, .addTransition 2 .epsilon 1] = .ok joined := by
    rfl
  exact (Built.empty _ _).editAll hedits

theorem mapsOnto_joined :
    joined.Built ∧ joined.start = some 0 ∧
      ∃ E D D' h, joined.withoutEpsilon = .ok E ∧ E.toDFA = .ok D ∧ joined.toDFA = .ok D' ∧
        MapsOnto h D D' ∧ D.stateCount = 3 ∧ D'.stateCount = 2 := by
  refine ⟨built_joined, rfl, ?_⟩
  obtain ⟨E, dA, dE, h, hE, -, -, honto, -, htoDFA, htoDFA', -⟩ :=
    mapsOnto_determinize_withoutEpsilon built_joined rfl
  have hcount : joined.toDFA.map stateCount = .ok 2 := by decide
  have hcount' : (joined.withoutEpsilon >>= toDFA).map stateCount = .ok 3 := by decide
  have hroute : (joined.withoutEpsilon >>= toDFA) = .ok dE.automaton :=
    bind_eq_ok.2 ⟨E, hE, htoDFA'⟩
  rw [htoDFA] at hcount
  rw [hroute] at hcount'
  exact ⟨E, dE.automaton, dA.automaton, h, hE, htoDFA', htoDFA, honto, Except.ok.inj hcount',
    Except.ok.inj hcount⟩

end Automaton

end Acceptors
