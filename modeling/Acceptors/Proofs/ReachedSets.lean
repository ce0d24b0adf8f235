import Acceptors.Determinization
import Acceptors.Proofs.Runs

/-!
# Reached sets

The search for labels finds the sets that words over the alphabet lead to, each of them once.  The
empty set is left out of the search, and it is never missed: what a dead run leads to is dead.
-/

namespace Acceptors.Automaton

variable {α : Type} [DecidableEq α] {A : Automaton α} {start : State}

/-! ## Words over the alphabet -/

/-- Some word over the alphabet leads to the set. -/
inductive LeadsTo (A : Automaton α) (start : State) : StateSet → Prop
  | closure : LeadsTo A start (A.closure [start])
  | advance {s : StateSet} {a : α} (h : LeadsTo A start s) (ha : a ∈ A.alphabet) :
      LeadsTo A start (A.advance s a)

theorem leadsTo_after {word : List α} (hword : ∀ a ∈ word, a ∈ A.alphabet) :
    A.LeadsTo start (A.after start word) := by
  induction word using List.reverseRecOn with
  | nil => exact .closure
  | append_singleton word a ih =>
      obtain ⟨hbefore, ha⟩ := List.forall_mem_append.1 hword
      rw [after_concat]
      exact (ih hbefore).advance (ha a (List.mem_singleton.2 rfl))

theorem leadsTo_iff_after {s : StateSet} :
    A.LeadsTo start s ↔
      ∃ word : List α, (∀ a ∈ word, a ∈ A.alphabet) ∧ A.after start word = s := by
  constructor
  · intro h
    induction h with
    | closure => exact ⟨[], by simp, rfl⟩
    | @advance s a _ ha ih =>
        obtain ⟨word, hword, rfl⟩ := ih
        refine ⟨word ++ [a], ?_, after_concat start word a⟩
        exact List.forall_mem_append.2 ⟨hword, List.forall_mem_singleton.2 ha⟩
  · rintro ⟨word, hword, rfl⟩
    exact leadsTo_after hword

theorem WellFormed.lt_of_leadsTo (wf : A.WellFormed) {s : StateSet} (h : A.LeadsTo start s) :
    ∀ q ∈ s, q < A.stateCount := by
  intro q hq
  cases h with
  | closure => exact wf.lt_of_mem_closure hq
  | advance _ _ => exact wf.lt_of_mem_advance hq

/-! ## The search -/

theorem mem_successors {s t : StateSet} :
    t ∈ A.successors A.moves s ↔ t ≠ ∅ ∧ ∃ a ∈ A.alphabet, A.advance s a = t := by
  have hadvance : ∀ a, A.moves.advance s a = A.advance s a := fun a => rfl
  simp only [successors, List.mem_filter, List.mem_map, hadvance, Bool.not_eq_true',
    ← Bool.not_eq_true, StateSet.isEmpty_iff]
  exact and_comm

theorem leadsTo_of_reached {s : StateSet}
    (h : Search.Reached (A.successors A.moves) [A.closure [start]] s) : A.LeadsTo start s := by
  induction h with
  | seed hseed =>
      cases List.mem_singleton.1 hseed
      exact .closure
  | next _ hnext ih =>
      obtain ⟨-, a, ha, rfl⟩ := mem_successors.1 hnext
      exact ih.advance ha

theorem WellFormed.reached_bounded (wf : A.WellFormed) (start : State) :
    Search.Bounded (A.successors A.moves) [A.closure [start]] (Nat.pow 2 A.stateCount) := by
  intro sets hnodup hreached
  refine StateSet.length_le_two_pow hnodup fun s hs p hp => ?_
  cases hreached s hs with
  | seed hseed =>
      cases List.mem_singleton.1 hseed
      exact wf.lt_of_mem_closure hp
  | next _ hnext =>
      obtain ⟨-, a, -, rfl⟩ := mem_successors.1 hnext
      exact wf.lt_of_mem_advance hp

theorem WellFormed.nodup_reachedSets (wf : A.WellFormed) (start : State) :
    (A.reachedSets start).Nodup := by
  rw [reachedSets_eq_reach]
  exact Search.nodup_reach (wf.reached_bounded start)

theorem WellFormed.reachedSets_zero (wf : A.WellFormed) (start : State) :
    (A.reachedSets start)[0]? = some (A.closure [start]) := by
  obtain ⟨later, hlater⟩ := Search.seeds_prefix_reach (wf.reached_bounded start)
  rw [reachedSets_eq_reach, ← hlater, List.eraseDups_cons]
  rfl

theorem WellFormed.reachedSets_length_pos (wf : A.WellFormed) (start : State) :
    0 < (A.reachedSets start).length :=
  (List.getElem?_eq_some_iff.1 (wf.reachedSets_zero start)).1

theorem WellFormed.mem_reachedSets (wf : A.WellFormed) {s : StateSet} :
    s ∈ A.reachedSets start ↔ Search.Reached (A.successors A.moves) [A.closure [start]] s := by
  rw [reachedSets_eq_reach]
  exact Search.mem_reach (wf.reached_bounded start)

theorem WellFormed.leadsTo_of_mem_reachedSets (wf : A.WellFormed) {s : StateSet}
    (hs : s ∈ A.reachedSets start) : A.LeadsTo start s :=
  leadsTo_of_reached (wf.mem_reachedSets.1 hs)

theorem WellFormed.advance_mem_reachedSets (wf : A.WellFormed) {s : StateSet} {a : α}
    (hs : s ∈ A.reachedSets start) (ha : a ∈ A.alphabet) (hne : A.advance s a ≠ ∅) :
    A.advance s a ∈ A.reachedSets start :=
  wf.mem_reachedSets.2 (.next (wf.mem_reachedSets.1 hs) (mem_successors.2 ⟨hne, a, ha, rfl⟩))

/-! ## What is found -/

theorem WellFormed.closure_start_ne_empty (wf : A.WellFormed) (hlt : start < A.stateCount) :
    A.closure [start] ≠ ∅ :=
  StateSet.nonempty_of_mem ((wf.mem_closure_singleton hlt).2 (.refl start))

theorem WellFormed.mem_reachedSets_iff_leadsTo (wf : A.WellFormed) (hlt : start < A.stateCount)
    {s : StateSet} : s ∈ A.reachedSets start ↔ s ≠ ∅ ∧ A.LeadsTo start s := by
  constructor
  · intro hs
    refine ⟨?_, wf.leadsTo_of_mem_reachedSets hs⟩
    cases wf.mem_reachedSets.1 hs with
    | seed hseed =>
        cases List.mem_singleton.1 hseed
        exact wf.closure_start_ne_empty hlt
    | next _ hnext => exact (mem_successors.1 hnext).1
  · rintro ⟨hne, hleads⟩
    induction hleads with
    | closure => exact wf.mem_reachedSets.2 (.seed (List.mem_singleton.2 rfl))
    | @advance s a _ ha ih =>
        exact wf.advance_mem_reachedSets (ih (ne_empty_of_advance hne)) ha hne

theorem WellFormed.empty_not_mem_reachedSets (wf : A.WellFormed) (hlt : start < A.stateCount) :
    ∅ ∉ A.reachedSets start :=
  fun hmem => ((wf.mem_reachedSets_iff_leadsTo hlt).1 hmem).1 rfl

theorem WellFormed.leadsTo_empty_iff (wf : A.WellFormed) (hlt : start < A.stateCount) :
    A.LeadsTo start ∅ ↔ ∃ s ∈ A.reachedSets start, ∃ a ∈ A.alphabet, A.advance s a = ∅ := by
  constructor
  · have hdies : ∀ t, A.LeadsTo start t → t = ∅ →
        ∃ s ∈ A.reachedSets start, ∃ a ∈ A.alphabet, A.advance s a = ∅ := by
      intro t hleads hdead
      induction hleads with
      | closure => exact absurd hdead (wf.closure_start_ne_empty hlt)
      | @advance s a hleads ha ih =>
          by_cases hbefore : s = ∅
          · exact ih hbefore
          · exact ⟨s, (wf.mem_reachedSets_iff_leadsTo hlt).2 ⟨hbefore, hleads⟩, a, ha, hdead⟩
    exact fun hleads => hdies ∅ hleads rfl
  · rintro ⟨s, hs, a, ha, hdead⟩
    have hleads := ((wf.mem_reachedSets_iff_leadsTo hlt).1 hs).2
    exact hdead ▸ hleads.advance ha

end Acceptors.Automaton
