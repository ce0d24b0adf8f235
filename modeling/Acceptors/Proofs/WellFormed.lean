import Acceptors.Proofs.Construction
import Acceptors.Proofs.Search

/-!
# Well-formed automata

In a well-formed automaton every transition leads from a state to a state under a permitted label,
no transition is stored twice, no symbol is listed twice, and the start is a state.  Every call that
is not refused keeps an automaton well formed.
-/

namespace Acceptors.Automaton

variable {α : Type}

structure WellFormed (A : Automaton α) : Prop where
  alphabet_nodup : A.alphabet.Nodup
  start_lt : ∀ q, A.start = some q → q < A.stateCount
  source_lt : ∀ t ∈ A.recent, t.source < A.stateCount
  target_lt : ∀ t ∈ A.recent, t.target < A.stateCount
  label_permitted : ∀ t ∈ A.recent, A.Permits t.label
  recent_nodup : A.recent.Nodup

variable {A B : Automaton α}

/-- A table may be written at once if a call would have accepted each of its transitions. -/
theorem wellFormed_of_table (halphabet : A.alphabet.Nodup)
    (hstart : ∀ q, A.start = some q → q < A.stateCount)
    (htable : ∀ t ∈ A.recent, (t.source < A.stateCount ∧ t.target < A.stateCount) ∧
      A.Permits t.label) (hrecent : A.recent.Nodup) : A.WellFormed where
  alphabet_nodup := halphabet
  start_lt := hstart
  source_lt t ht := (htable t ht).1.1
  target_lt t ht := (htable t ht).1.2
  label_permitted t ht := (htable t ht).2
  recent_nodup := hrecent

/-! ## Calls that change states -/

theorem WellFormed.addState (wf : A.WellFormed) (data : StateData) :
    (A.addState data).WellFormed where
  alphabet_nodup := wf.alphabet_nodup
  start_lt q hq := lt_stateCount_addState (wf.start_lt q hq)
  source_lt t ht := lt_stateCount_addState (wf.source_lt t ht)
  target_lt t ht := lt_stateCount_addState (wf.target_lt t ht)
  label_permitted := wf.label_permitted
  recent_nodup := wf.recent_nodup

theorem WellFormed.addStates (wf : A.WellFormed) (data : List StateData) :
    (A.addStates data).WellFormed := by
  induction data generalizing A with
  | nil => exact wf
  | cons d data ih => exact ih (wf.addState d)

theorem WellFormed.setStart (wf : A.WellFormed) {q : State} (h : A.setStart q = .ok B) :
    B.WellFormed := by
  obtain ⟨hq, rfl⟩ := setStart_eq_ok.1 h
  refine { wf with start_lt := fun p hp => ?_ }
  cases hp
  exact hq

theorem WellFormed.modifyState (wf : A.WellFormed) {q : State} {f : StateData → StateData}
    (h : A.modifyState q f = .ok B) : B.WellFormed := by
  obtain ⟨-, rfl⟩ := modifyState_eq_ok.1 h
  constructor
  · exact wf.alphabet_nodup
  · intro p hp
    rw [stateCount_modify]
    exact wf.start_lt p hp
  · intro t ht
    rw [stateCount_modify]
    exact wf.source_lt t ht
  · intro t ht
    rw [stateCount_modify]
    exact wf.target_lt t ht
  · exact wf.label_permitted
  · exact wf.recent_nodup

/-! ## Calls that change transitions -/

variable [DecidableEq α]

theorem wellFormed_empty (kind : Kind) (alphabet : List α) :
    (empty kind alphabet).WellFormed where
  alphabet_nodup := nodup_eraseDups alphabet
  start_lt q h := by simp [empty] at h
  source_lt t h := by simp [empty] at h
  target_lt t h := by simp [empty] at h
  label_permitted t h := by simp [empty] at h
  recent_nodup := List.nodup_nil

theorem WellFormed.addTransition (wf : A.WellFormed) {p q : State} {label : Label α}
    {isNew : Bool} (h : A.addTransition p label q = .ok (isNew, B)) : B.WellFormed := by
  obtain ⟨⟨hp, hq, hlabel⟩, ⟨-, -, rfl⟩ | ⟨hnew, -, rfl⟩⟩ := addTransition_eq_ok.1 h
  · exact wf
  · constructor
    · exact wf.alphabet_nodup
    · exact wf.start_lt
    · exact List.forall_mem_cons.2 ⟨hp, wf.source_lt⟩
    · exact List.forall_mem_cons.2 ⟨hq, wf.target_lt⟩
    · exact List.forall_mem_cons.2 ⟨hlabel, wf.label_permitted⟩
    · exact List.nodup_cons.2 ⟨hnew, wf.recent_nodup⟩

theorem WellFormed.complete (wf : A.WellFormed) : A.complete.2.WellFormed := by
  by_cases hgaps : A.gaps = []
  · rw [complete_of_gaps_eq_nil hgaps]
    exact wf
  · rw [complete_of_gaps_ne_nil hgaps]
    have hwf := wf.addState ⟨false, none⟩
    have hsink : A.stateCount < (A.addState ⟨false, none⟩).stateCount := by simp
    apply wellFormed_of_table
    · exact wf.alphabet_nodup
    · exact hwf.start_lt
    · refine List.forall_mem_append.2 ⟨?_, fun t ht => ?_⟩
      · rintro ⟨p, label, q⟩ ht
        obtain ⟨rfl, a, ha, rfl, hp⟩ := mem_sinkMoves.1 (List.mem_reverse.1 ht)
        refine ⟨⟨?_, hsink⟩, ha⟩
        rcases hp with rfl | hgap
        · exact hsink
        · exact lt_stateCount_addState (mem_gaps.1 hgap).1
      · exact ⟨⟨hwf.source_lt t ht, hwf.target_lt t ht⟩, wf.label_permitted t ht⟩
    · refine List.nodup_append.2
        ⟨List.nodup_reverse.2 (nodup_sinkMoves wf.alphabet_nodup), wf.recent_nodup, ?_⟩
      -- The added transitions lead to the sink, to which none led before.
      rintro ⟨p, label, q⟩ ht _ hold rfl
      obtain ⟨rfl, -⟩ := mem_sinkMoves.1 (List.mem_reverse.1 ht)
      exact Nat.lt_irrefl _ (wf.target_lt _ hold)

theorem WellFormed.edit (wf : A.WellFormed) {e : Edit α} {reply : Reply}
    (h : A.edit e = .ok (reply, B)) : B.WellFormed := by
  cases e with
  | addState data =>
      cases h
      exact wf.addState data
  | setStart q => exact wf.setStart (edit_setStart_eq_ok.1 h).2
  | setAccepting q accepting => exact wf.modifyState (edit_setAccepting_eq_ok.1 h).2
  | setName q name => exact wf.modifyState (edit_setName_eq_ok.1 h).2
  | addTransition p label q =>
      obtain ⟨isNew, -, hadded⟩ := edit_addTransition_eq_ok.1 h
      exact wf.addTransition hadded
  | complete =>
      cases h
      exact wf.complete

end Acceptors.Automaton
