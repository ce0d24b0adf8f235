import Acceptors.Proofs.EpsilonRemoval

/-!
# Canonical removal of epsilon transitions

The removal lists its transitions by state, then by symbol, then by target, and what it lists
depends only on how the states move and accept between epsilon transitions.  `AgreeUpToEpsilon` says
that two automata do not differ in that.  Such automata have the same removal, whatever the order of
their transitions.  An automaton and its removal agree in this way as well, so that a second removal
changes nothing.
-/

namespace Acceptors.Automaton

variable {α : Type} {A B : Automaton α}

/-- The states have the same names, and between epsilon transitions they move and accept alike. -/
structure AgreeUpToEpsilon (A B : Automaton α) : Prop where
  alphabet_eq : B.alphabet = A.alphabet
  stateCount_eq : B.stateCount = A.stateCount
  name_eq : ∀ q, B.name? q = A.name? q
  accepting_iff : ∀ p, (∃ q, B.EpsilonReach p q ∧ B.isAcceptingState q) ↔
    ∃ q, A.EpsilonReach p q ∧ A.isAcceptingState q
  move_iff : ∀ p a r, (∃ q, B.EpsilonReach p q ∧ ⟨q, .symbol a, r⟩ ∈ B.recent) ↔
    ∃ q, A.EpsilonReach p q ∧ ⟨q, .symbol a, r⟩ ∈ A.recent

/-! ## Agreement -/

theorem epsilonReach_congr (h : ∀ t, t ∈ B.recent ↔ t ∈ A.recent) {p q : State} :
    B.EpsilonReach p q ↔ A.EpsilonReach p q := by
  simp only [EpsilonReach, h]

theorem agreeUpToEpsilon_of_transitions (halphabet : B.alphabet = A.alphabet)
    (hdata : B.stateData = A.stateData) (h : ∀ t, t ∈ B.recent ↔ t ∈ A.recent) :
    AgreeUpToEpsilon A B where
  alphabet_eq := halphabet
  stateCount_eq := congrArg Array.size hdata
  name_eq q := by rw [name?, name?, hdata]
  accepting_iff p := by simp only [epsilonReach_congr h, isAcceptingState, hdata]
  move_iff p a r := by simp only [epsilonReach_congr h, h]

theorem getElem?_stateData {q : State} (hq : q < A.stateCount) :
    A.stateData[q]? = some ⟨A.isAcceptingState q, A.name? q⟩ := by
  rw [isAcceptingState, name?, Array.getElem?_eq_getElem hq]
  rfl

variable [DecidableEq α]

theorem name?_closedAutomaton (start q : State) :
    (A.closedAutomaton start).name? q = A.name? q := by
  by_cases hq : q < A.stateCount
  · rw [name?, getElem?_stateData_closedAutomaton hq]
    rfl
  · have hcount : (A.closedAutomaton start).stateData.size ≤ q := by
      rw [← stateCount, stateCount_closedAutomaton]
      exact Nat.le_of_not_lt hq
    rw [name?, name?, Array.getElem?_eq_none hcount, Array.getElem?_eq_none (Nat.le_of_not_lt hq)]

theorem WellFormed.agreeUpToEpsilon_closedAutomaton (wf : A.WellFormed) {start : State}
    (hstart : A.start = some start) : AgreeUpToEpsilon A (A.closedAutomaton start) where
  alphabet_eq := rfl
  stateCount_eq := stateCount_closedAutomaton start
  name_eq := name?_closedAutomaton start
  accepting_iff p := by
    simp only [wf.epsilonReach_closedAutomaton hstart, wf.isAcceptingState_closedAutomaton,
      exists_eq_left']
  move_iff p a r := by
    simp only [wf.epsilonReach_closedAutomaton hstart, wf.mem_recent_closedAutomaton,
      exists_eq_left', Label.symbol.injEq]

/-! ## The removal depends on nothing else -/

theorem closedStates_closed : A.closedStates A.closed =
    A.states.map fun q => ⟨A.containsAccepting (A.closure [q]), A.name? q⟩ := by
  rw [closedStates, closed, List.map_map]
  rfl

theorem closedMoves_closed : A.closedMoves A.closed = A.states.flatMap fun q =>
    A.alphabet.flatMap fun a =>
      (StateSet.ofList (A.moved (A.closure [q]) a)).toList.map fun r => ⟨q, .symbol a, r⟩ := by
  rw [closedMoves, closed, List.flatMap_map]
  rfl

theorem WellFormed.mem_moved_closure (wf : A.WellFormed) {q r : State} (hq : q < A.stateCount)
    {a : α} : r ∈ StateSet.ofList (A.moved (A.closure [q]) a) ↔
      ∃ p, A.EpsilonReach q p ∧ ⟨p, .symbol a, r⟩ ∈ A.recent := by
  simp only [StateSet.mem_ofList, mem_moved, wf.mem_closure_singleton hq]

namespace AgreeUpToEpsilon

variable (agree : AgreeUpToEpsilon A B) (wfA : A.WellFormed) (wfB : B.WellFormed)

include agree wfA wfB

theorem closedStates_eq : B.closedStates B.closed = A.closedStates A.closed := by
  rw [closedStates_closed, closedStates_closed, states, states, agree.stateCount_eq]
  refine List.map_congr_left fun q hq => ?_
  have hqA : q < A.stateCount := List.mem_range.1 hq
  have hqB : q < B.stateCount := hqA.trans_eq agree.stateCount_eq.symm
  have haccepting : B.containsAccepting (B.closure [q]) = A.containsAccepting (A.closure [q]) := by
    rw [Bool.eq_iff_iff, containsAccepting_iff, containsAccepting_iff]
    simpa only [wfA.mem_closure_singleton hqA, wfB.mem_closure_singleton hqB]
      using agree.accepting_iff q
  rw [haccepting, agree.name_eq]

theorem closedMoves_eq : B.closedMoves B.closed = A.closedMoves A.closed := by
  rw [closedMoves_closed, closedMoves_closed, states, states, agree.stateCount_eq,
    agree.alphabet_eq]
  refine List.flatMap_congr fun q hq => List.flatMap_congr fun a _ => ?_
  have hqA : q < A.stateCount := List.mem_range.1 hq
  have hqB : q < B.stateCount := hqA.trans_eq agree.stateCount_eq.symm
  have htargets : StateSet.ofList (B.moved (B.closure [q]) a) =
      StateSet.ofList (A.moved (A.closure [q]) a) := by
    refine StateSet.ext fun r => ?_
    rw [wfA.mem_moved_closure hqA, wfB.mem_moved_closure hqB]
    exact agree.move_iff q a r
  rw [htargets]

theorem closedAutomaton_eq (start : State) : B.closedAutomaton start = A.closedAutomaton start := by
  rw [closedAutomaton, closedAutomaton, agree.closedStates_eq wfA wfB,
    agree.closedMoves_eq wfA wfB, agree.alphabet_eq]

theorem withoutEpsilon_eq (hstart : B.start = A.start) : B.withoutEpsilon = A.withoutEpsilon := by
  cases h : A.start with
  | none => rw [withoutEpsilon, withoutEpsilon, initial, initial, hstart, h]; rfl
  | some start =>
      rw [withoutEpsilon_eq_ok.2 ⟨start, h, rfl⟩,
        withoutEpsilon_eq_ok.2 ⟨start, hstart.trans h, rfl⟩, agree.closedAutomaton_eq wfA wfB]

end AgreeUpToEpsilon

/-! ## Automata without epsilon transitions -/

theorem WellFormed.stateData_closedAutomaton_of_free (wf : A.WellFormed) (free : A.IsEpsilonFree)
    (start : State) : (A.closedAutomaton start).stateData = A.stateData := by
  refine Array.ext_getElem? fun q => ?_
  by_cases hq : q < A.stateCount
  · have hqE := hq.trans_eq (stateCount_closedAutomaton start).symm
    have haccepting : (A.closedAutomaton start).isAcceptingState q = A.isAcceptingState q := by
      rw [Bool.eq_iff_iff, wf.isAcceptingState_closedAutomaton]
      simp only [free.epsilonReach_iff, exists_eq_left']
    rw [getElem?_stateData hq, getElem?_stateData hqE, haccepting, name?_closedAutomaton]
  · have hqE : (A.closedAutomaton start).stateCount ≤ q := by
      rw [stateCount_closedAutomaton]
      exact Nat.le_of_not_lt hq
    rw [Array.getElem?_eq_none hqE, Array.getElem?_eq_none (Nat.le_of_not_lt hq)]

theorem WellFormed.mem_recent_closedAutomaton_of_free (wf : A.WellFormed) (free : A.IsEpsilonFree)
    {start : State} {t : Transition α} :
    t ∈ (A.closedAutomaton start).recent ↔ t ∈ A.recent := by
  obtain ⟨p, label, q⟩ := t
  rw [wf.mem_recent_closedAutomaton]
  simp only [free.epsilonReach_iff, exists_eq_left']
  constructor
  · rintro ⟨a, rfl, ht⟩
    exact ht
  · intro ht
    cases label with
    | symbol a => exact ⟨a, rfl, ht⟩
    | epsilon => exact absurd ht (isEpsilonFree_iff.1 free p q)

/--
The removal of epsilon transitions does not depend on the order of the transitions, and to the order
of its own transitions it is unchanged by another removal.  Where there is nothing to remove the
states, the start and the set of transitions are kept.
-/
theorem withoutEpsilon_canonical (hA : A.Built) :
    (∀ B : Automaton α, B.Built → B.alphabet = A.alphabet → B.stateData = A.stateData →
      B.start = A.start → (∀ t, t ∈ B.transitions ↔ t ∈ A.transitions) →
        B.withoutEpsilon = A.withoutEpsilon) ∧
    ∀ start, A.start = some start →
      ∃ E, A.withoutEpsilon = .ok E ∧ E.withoutEpsilon = .ok E ∧
        (A.IsEpsilonFree → E.stateData = A.stateData ∧ E.start = A.start ∧
          ∀ t, t ∈ E.transitions ↔ t ∈ A.transitions) := by
  have wf := hA.wellFormed
  constructor
  · intro B hB halphabet hdata hstart htransitions
    simp only [mem_transitions] at htransitions
    exact (agreeUpToEpsilon_of_transitions halphabet hdata htransitions).withoutEpsilon_eq wf
      hB.wellFormed hstart
  · intro start hstart
    have hE : A.withoutEpsilon = .ok (A.closedAutomaton start) :=
      withoutEpsilon_eq_ok.2 ⟨start, hstart, rfl⟩
    have agree := wf.agreeUpToEpsilon_closedAutomaton hstart
    refine ⟨A.closedAutomaton start, hE, ?_, fun free => ⟨?_, hstart.symm, fun t => ?_⟩⟩
    · rw [agree.withoutEpsilon_eq wf (wf.closedAutomaton hstart) hstart.symm, hE]
    · exact wf.stateData_closedAutomaton_of_free free start
    · rw [mem_transitions, mem_transitions, wf.mem_recent_closedAutomaton_of_free free]

/-- `epsilonCycle` with its transitions added in another order. -/
def reorderedCycle : Automaton Char :=
  { epsilonCycle with
    recent := [⟨0, .symbol 'a', 2⟩, ⟨0, .epsilon, 1⟩, ⟨2, .symbol 'b', 0⟩, ⟨1, .epsilon, 0⟩,
      ⟨1, .symbol 'a', 1⟩] }

/-- Two states that read `a` into each other; the way back was added first. -/
def backAndForth : Automaton Char where
  kind := .nondeterministic
  alphabet := ['a']
  start := some 0
  stateData := #[⟨false, some "near"⟩, ⟨true, none⟩]
  recent := [⟨0, .symbol 'a', 1⟩, ⟨1, .symbol 'a', 0⟩]

theorem built_reorderedCycle : reorderedCycle.Built := by
  have hedits : (empty .epsilonNondeterministic ['a', 'b']).editAll [.addState ⟨false, none⟩,
      .addState ⟨false, none⟩, .addState ⟨true, none⟩, .setStart 0,
      .addTransition 1 (.symbol 'a') 1, .addTransition 1 .epsilon 0,
      .addTransition 2 (.symbol 'b') 0, .addTransition 0 .epsilon 1,
      .addTransition 0 (.symbol 'a') 2] = .ok reorderedCycle := by
    rfl
  exact (Built.empty _ _).editAll hedits

theorem built_backAndForth : backAndForth.Built := by
  have hedits : (empty .nondeterministic ['a']).editAll [.addState ⟨false, some "near"⟩,
      .addState ⟨true, none⟩, .setStart 0, .addTransition 1 (.symbol 'a') 0,
      .addTransition 0 (.symbol 'a') 1] = .ok backAndForth := by
    rfl
  exact (Built.empty _ _).editAll hedits

theorem withoutEpsilon_canonical_reorderings :
    epsilonCycle.Built ∧ reorderedCycle.Built ∧ backAndForth.Built ∧
      reorderedCycle.withoutEpsilon = epsilonCycle.withoutEpsilon ∧
      (∃ E, epsilonCycle.withoutEpsilon = .ok E ∧ E.withoutEpsilon = .ok E) ∧
      ∃ E, backAndForth.withoutEpsilon = .ok E ∧ E.transitions = backAndForth.transitions.reverse ∧
        E.stateData = backAndForth.stateData ∧
        ∀ t, t ∈ E.transitions ↔ t ∈ backAndForth.transitions := by
  obtain ⟨horder, hcycle⟩ := withoutEpsilon_canonical built_epsilonCycle
  obtain ⟨-, hfree⟩ := withoutEpsilon_canonical built_backAndForth
  refine ⟨built_epsilonCycle, built_reorderedCycle, built_backAndForth, ?_, ?_, ?_⟩
  · have hsame : ∀ t, t ∈ reorderedCycle.transitions ↔ t ∈ epsilonCycle.transitions := by
      intro t
      simp only [transitions, reorderedCycle, epsilonCycle, List.mem_reverse, List.mem_cons,
        List.not_mem_nil, or_false]
      tauto
    exact horder reorderedCycle built_reorderedCycle rfl rfl rfl hsame
  · obtain ⟨E, hE, htwice, -⟩ := hcycle 0 rfl
    exact ⟨E, hE, htwice⟩
  · obtain ⟨E, hE, -, hkept⟩ := hfree 0 rfl
    obtain ⟨hdata, -, htransitions⟩ := hkept (by decide)
    have horder : backAndForth.withoutEpsilon.map transitions =
        .ok backAndForth.transitions.reverse := by decide
    rw [hE] at horder
    exact ⟨E, hE, Except.ok.inj horder, hdata, htransitions⟩

end Acceptors.Automaton
