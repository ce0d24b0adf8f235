import Acceptors.Proofs.EpsilonRemoval

/-!
# Answers about epsilon closures

Asked for the closure of a set, an automaton either refuses the smallest state that it does not know
or answers with exactly the states that epsilon transitions lead to from the set.  The closure of a
state and the table of all closures answer in the same way.
-/

namespace Acceptors.Automaton

variable {α : Type} {A : Automaton α}

theorem check_of_mem {q : State} (hq : q ∈ A.states) : A.check q = .ok () :=
  check_eq_ok.2 (mem_states.1 hq)

theorem check_of_not_mem {q : State} (hq : q ∉ A.states) :
    A.check q = .error (.unknownState q) := by
  have hunknown : ¬ A.contains q := fun h => hq (mem_states.2 (contains_iff.1 h))
  rw [check, if_neg hunknown]

/-- States that are checked in ascending order are refused at the smallest unknown one. -/
theorem forM_check_of_unknown {states : List State} (hascending : states.Pairwise (· < ·))
    (hunknown : ∃ q ∈ states, q ∉ A.states) :
    ∃ q ∈ states, q ∉ A.states ∧ (∀ p ∈ states, p ∉ A.states → q ≤ p) ∧
      states.forM A.check = .error (.unknownState q) := by
  induction states with
  | nil => simp at hunknown
  | cons p states ih =>
      obtain ⟨hlt, hascending⟩ := List.pairwise_cons.1 hascending
      have hcons : (p :: states).forM A.check =
        (A.check p >>= fun _ => states.forM A.check) := rfl
      by_cases hp : p ∈ A.states
      · obtain ⟨q, hq, hforeign, hleast, hrefused⟩ :=
          ih hascending ((List.exists_mem_cons_iff _ _ _).1 hunknown |>.resolve_left (not_not.2 hp))
        refine ⟨q, List.mem_cons_of_mem p hq, hforeign, ?_, ?_⟩
        · exact List.forall_mem_cons.2 ⟨fun hnot => absurd hp hnot, hleast⟩
        · rw [hcons, check_of_mem hp]
          exact hrefused
      · refine ⟨p, List.mem_cons_self, hp, ?_, ?_⟩
        · exact List.forall_mem_cons.2 ⟨fun _ => Nat.le_refl p, fun q hq _ => (hlt q hq).le⟩
        · rw [hcons, check_of_not_mem hp]
          rfl

variable [DecidableEq α]

theorem epsilonClosure_of_unknown {S : StateSet} (hunknown : ∃ q ∈ S, q ∉ A.states) :
    ∃ q ∈ S, q ∉ A.states ∧ (∀ p ∈ S, p ∉ A.states → q ≤ p) ∧
      A.epsilonClosure S = .error (.unknownState q) := by
  obtain ⟨q, hq, hforeign, hleast, hrefused⟩ := forM_check_of_unknown S.ascending hunknown
  refine ⟨q, hq, hforeign, hleast, ?_⟩
  rw [epsilonClosure, hrefused]
  rfl

theorem WellFormed.epsilonClosure_of_known (wf : A.WellFormed) {S : StateSet}
    (hknown : ∀ q ∈ S, q ∈ A.states) :
    ∃ C, A.epsilonClosure S = .ok C ∧ A.IsClosureOf C S := by
  have hlt : ∀ q ∈ S, q < A.stateCount := fun q hq => mem_states.1 (hknown q hq)
  exact ⟨A.closure S.toList, epsilonClosure_eq_ok.2 ⟨hlt, rfl⟩, (wf.isClosureOf_iff hlt).2 rfl⟩

theorem closures_eq_map : A.closures = A.states.map fun q => A.closure [q] := by
  rw [closures, closed, List.map_map]
  rfl

theorem length_closures (A : Automaton α) : A.closures.length = A.stateCount := by
  rw [closures_eq_map, List.length_map, states, List.length_range]

theorem WellFormed.mem_of_getElem?_closures (wf : A.WellFormed) {q r : State} {C : StateSet}
    (hC : A.closures[q]? = some C) : r ∈ C ↔ A.EpsilonReach q r := by
  have hq : q < A.stateCount := A.length_closures ▸ (List.getElem?_eq_some_iff.1 hC).1
  rw [closures_eq_map, List.getElem?_map, states, List.getElem?_range hq] at hC
  cases hC
  exact wf.mem_closure_singleton hq

/--
The closure of a set that holds an unknown state is refused, and the refusal names the smallest one.
All other closures hold exactly the states that epsilon transitions lead to.
-/
theorem epsilonClosure_exact (built : A.Built) :
    (∀ S : StateSet,
      ((∃ q ∈ S, q ∉ A.states) →
        ∃ q ∈ S, q ∉ A.states ∧ (∀ p ∈ S, p ∉ A.states → q ≤ p) ∧
          A.epsilonClosure S = .error (.unknownState q)) ∧
      ((∀ q ∈ S, q ∈ A.states) →
        ∃ C, A.epsilonClosure S = .ok C ∧ C.toList.Pairwise (· < ·) ∧
          ∀ r, r ∈ C ↔ ∃ q ∈ S, A.EpsilonReach q r)) ∧
    (∀ q, (q ∉ A.states → A.stateClosure q = .error (.unknownState q)) ∧
      (q ∈ A.states →
        ∃ C, A.stateClosure q = .ok C ∧ C.toList.Pairwise (· < ·) ∧
          ∀ r, r ∈ C ↔ A.EpsilonReach q r)) ∧
    A.closures.length = A.stateCount ∧
    ∀ q C, A.closures[q]? = some C →
      C.toList.Pairwise (· < ·) ∧ ∀ r, r ∈ C ↔ A.EpsilonReach q r := by
  have wf := built.wellFormed
  refine ⟨fun S => ⟨epsilonClosure_of_unknown, fun hknown => ?_⟩, fun q => ⟨fun hq => ?_,
    fun hq => ?_⟩, A.length_closures, fun q C hC => ?_⟩
  · obtain ⟨C, hC, hclosure⟩ := wf.epsilonClosure_of_known hknown
    exact ⟨C, hC, C.ascending, hclosure⟩
  · have hunknown : ∃ p ∈ StateSet.singleton q, p ∉ A.states :=
      ⟨q, StateSet.mem_singleton.2 rfl, hq⟩
    obtain ⟨p, hp, -, -, hrefused⟩ := epsilonClosure_of_unknown hunknown
    rw [stateClosure, hrefused, StateSet.mem_singleton.1 hp]
  · have hknown : ∀ p ∈ StateSet.singleton q, p ∈ A.states := by
      intro p hp
      rwa [StateSet.mem_singleton.1 hp]
    obtain ⟨C, hC, hclosure⟩ := wf.epsilonClosure_of_known hknown
    exact ⟨C, hC, C.ascending, fun r => by simpa using hclosure r⟩
  · exact ⟨C.ascending, fun r => wf.mem_of_getElem?_closures hC⟩

theorem epsilonClosure_exact_epsilonCycle :
    epsilonCycle.Built ∧
      epsilonCycle.epsilonClosure (.ofList [7, 1, 5]) = .error (.unknownState 5) ∧
      epsilonCycle.stateClosure 1 = .ok (.ofList [0, 1]) ∧
      ∀ r, r ∈ StateSet.ofList [0, 1] ↔ epsilonCycle.EpsilonReach 1 r := by
  obtain ⟨hsets, hstates, -⟩ := epsilonClosure_exact built_epsilonCycle
  refine ⟨built_epsilonCycle, ?_, ?_⟩
  · obtain ⟨q, hq, hforeign, hleast, hrefused⟩ :=
      (hsets (.ofList [7, 1, 5])).1 ⟨5, by decide, by decide⟩
    have hle : q ≤ 5 := hleast 5 (by decide) (by decide)
    rcases (by simpa using hq : q = 7 ∨ q = 1 ∨ q = 5) with rfl | rfl | rfl
    · contradiction
    · exact absurd (by decide) hforeign
    · exact hrefused
  · obtain ⟨C, hC, -, hmem⟩ := (hstates 1).2 (by decide)
    have hset : epsilonCycle.stateClosure 1 = .ok (.ofList [0, 1]) := by decide
    have heq : C = .ofList [0, 1] := Except.ok.inj (hC.symm.trans hset)
    exact ⟨hset, heq ▸ hmem⟩

end Acceptors.Automaton
