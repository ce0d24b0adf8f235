import Acceptors.Proofs.StateSet
import Acceptors.Proofs.WellFormed
import Acceptors.Simulation
import Mathlib.Logic.Relation

/-!
# Exactness of the epsilon closure

The closure of a list of states holds exactly the states that zero or more epsilon transitions lead
to from its known states.  With it, one step of a run is exactly one symbol transition between
epsilon transitions.
-/

namespace Acceptors.Automaton

variable {α : Type}

/-- Epsilon transitions, in any number, lead from one state to another. -/
def EpsilonReach (A : Automaton α) : State → State → Prop :=
  Relation.ReflTransGen fun p q => ⟨p, .epsilon, q⟩ ∈ A.recent

/-- Epsilon transitions do not lead out of the set. -/
def IsClosed (A : Automaton α) (s : StateSet) : Prop :=
  ∀ p ∈ s, ∀ q, A.EpsilonReach p q → q ∈ s

variable {A : Automaton α}

theorem EpsilonReach.refl (q : State) : A.EpsilonReach q q := Relation.ReflTransGen.refl

theorem EpsilonReach.trans {p q r : State} (hpq : A.EpsilonReach p q)
    (hqr : A.EpsilonReach q r) : A.EpsilonReach p r :=
  Relation.ReflTransGen.trans hpq hqr

theorem WellFormed.lt_of_epsilonReach (wf : A.WellFormed) {p q : State}
    (h : A.EpsilonReach p q) (hp : p < A.stateCount) : q < A.stateCount := by
  induction h with
  | refl => exact hp
  | tail _ hstep _ => exact wf.target_lt _ hstep

theorem WellFormed.lt_source_of_epsilonReach (wf : A.WellFormed) {p q : State}
    (h : A.EpsilonReach p q) (hq : q < A.stateCount) : p < A.stateCount := by
  induction h using Relation.ReflTransGen.head_induction_on with
  | refl => exact hq
  | head hstep _ _ => exact wf.source_lt _ hstep

theorem IsEpsilonFree.epsilonReach_iff (free : A.IsEpsilonFree) {p q : State} :
    A.EpsilonReach p q ↔ p = q := by
  constructor
  · intro h
    induction h with
    | refl => rfl
    | tail _ hstep _ => exact absurd hstep (isEpsilonFree_iff.1 free _ _)
  · rintro rfl
    exact .refl p

theorem WellFormed.isEpsilonFree (wf : A.WellFormed) (hkind : A.kind.allowsEpsilon = false) :
    A.IsEpsilonFree := by
  refine isEpsilonFree_iff.2 fun p q ht => ?_
  have hpermitted := wf.label_permitted _ ht
  rw [Permits, hkind] at hpermitted
  contradiction

variable [DecidableEq α]

/-! ## Closures -/

theorem reached_targets_iff {states : List State} {q : State} :
    Search.Reached (A.targets · .epsilon) states q ↔ ∃ p ∈ states, A.EpsilonReach p q := by
  constructor
  · intro h
    induction h with
    | seed hp => exact ⟨_, hp, .refl _⟩
    | next _ hstep ih =>
        obtain ⟨p, hp, hreach⟩ := ih
        exact ⟨p, hp, Relation.ReflTransGen.tail hreach (mem_targets.1 hstep)⟩
  · rintro ⟨p, hp, h⟩
    induction h with
    | refl => exact .seed hp
    | tail _ hstep ih => exact .next ih (mem_targets.2 hstep)

theorem WellFormed.closure_bounded (wf : A.WellFormed) (states : List State) :
    Search.Bounded (A.targets · .epsilon) (states.filter A.contains) A.stateCount := by
  intro items hnodup hreached
  refine length_le_of_nodup_of_lt hnodup fun q hq => ?_
  obtain ⟨p, hp, hreach⟩ := reached_targets_iff.1 (hreached q hq)
  exact wf.lt_of_epsilonReach hreach (contains_iff.1 (List.mem_filter.1 hp).2)

theorem WellFormed.mem_closureList (wf : A.WellFormed) {states : List State} {q : State} :
    q ∈ A.closureList states ↔ ∃ p ∈ states, p < A.stateCount ∧ A.EpsilonReach p q := by
  rw [closureList_eq_reach, Search.mem_reach (wf.closure_bounded states), reached_targets_iff]
  simp only [List.mem_filter, contains_iff, and_assoc]

theorem WellFormed.mem_closure (wf : A.WellFormed) {states : List State} {q : State} :
    q ∈ A.closure states ↔ ∃ p ∈ states, p < A.stateCount ∧ A.EpsilonReach p q :=
  StateSet.mem_ofList.trans wf.mem_closureList

theorem WellFormed.lt_of_mem_closure (wf : A.WellFormed) {states : List State} {q : State}
    (h : q ∈ A.closure states) : q < A.stateCount := by
  obtain ⟨p, -, hp, hreach⟩ := wf.mem_closure.1 h
  exact wf.lt_of_epsilonReach hreach hp

theorem WellFormed.isClosed_closure (wf : A.WellFormed) (states : List State) :
    A.IsClosed (A.closure states) := by
  intro p hp q hpq
  obtain ⟨r, hr, hlt, hrp⟩ := wf.mem_closure.1 hp
  exact wf.mem_closure.2 ⟨r, hr, hlt, hrp.trans hpq⟩

theorem WellFormed.mem_closure_singleton (wf : A.WellFormed) {p q : State}
    (hp : p < A.stateCount) : q ∈ A.closure [p] ↔ A.EpsilonReach p q := by
  rw [wf.mem_closure]
  constructor
  · rintro ⟨r, hr, -, hreach⟩
    cases List.mem_singleton.1 hr
    exact hreach
  · exact fun hreach => ⟨p, List.mem_singleton.2 rfl, hp, hreach⟩

theorem epsilonClosure_eq_ok {s t : StateSet} :
    A.epsilonClosure s = .ok t ↔ (∀ q ∈ s, q < A.stateCount) ∧ t = A.closure s.toList := by
  rw [epsilonClosure, bind_eq_ok]
  constructor
  · rintro ⟨_, hs, ht⟩
    cases ht
    exact ⟨forM_check_eq_ok.1 hs, rfl⟩
  · rintro ⟨hs, rfl⟩
    exact ⟨(), forM_check_eq_ok.2 hs, rfl⟩

/-! ## Steps of a run -/

theorem mem_moved {s : StateSet} {a : α} {q : State} :
    q ∈ A.moved s a ↔ ∃ p ∈ s, ⟨p, .symbol a, q⟩ ∈ A.recent := by
  simp [moved_eq_eraseDups, List.mem_eraseDups, StateSet.mem_toList]

theorem WellFormed.mem_advance (wf : A.WellFormed) {s : StateSet} {a : α} {r : State} :
    r ∈ A.advance s a ↔
      ∃ p ∈ s, ∃ q, ⟨p, .symbol a, q⟩ ∈ A.recent ∧ A.EpsilonReach q r := by
  have hadvance : A.advance s a = A.closure (A.moved s a) := rfl
  rw [hadvance, wf.mem_closure]
  constructor
  · rintro ⟨q, hq, -, hreach⟩
    obtain ⟨p, hp, ht⟩ := mem_moved.1 hq
    exact ⟨p, hp, q, ht, hreach⟩
  · rintro ⟨p, hp, q, ht, hreach⟩
    exact ⟨q, mem_moved.2 ⟨p, hp, ht⟩, wf.target_lt _ ht, hreach⟩

theorem WellFormed.lt_of_mem_advance (wf : A.WellFormed) {s : StateSet} {a : α} {q : State}
    (h : q ∈ A.advance s a) : q < A.stateCount := wf.lt_of_mem_closure h

theorem WellFormed.isClosed_advance (wf : A.WellFormed) (s : StateSet) (a : α) :
    A.IsClosed (A.advance s a) := wf.isClosed_closure _

@[simp] theorem advance_empty (a : α) : A.advance ∅ a = ∅ :=
  A.moves.advance_of_isEmpty ∅ a rfl

/-- A dead run stays dead, so that a run that is alive was alive before the symbol. -/
theorem ne_empty_of_advance {s : StateSet} {a : α} (h : A.advance s a ≠ ∅) : s ≠ ∅ := by
  rintro rfl
  exact h (advance_empty a)

theorem WellFormed.advance_foreign (wf : A.WellFormed) (s : StateSet) {a : α}
    (ha : a ∉ A.alphabet) : A.advance s a = ∅ := by
  refine StateSet.eq_empty_iff.2 fun r hr => ?_
  obtain ⟨p, -, q, ht, -⟩ := wf.mem_advance.1 hr
  exact ha (wf.label_permitted _ ht)

end Acceptors.Automaton
