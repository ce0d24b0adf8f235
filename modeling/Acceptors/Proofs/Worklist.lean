import Acceptors.Proofs.Numbering

/-!
# The worklist of a determinization

Every step of the search for labels pops one set.  The sets are popped in the order in which the
derived states are numbered, each of them once, and then the worklist is empty.  There are fewer of
them than sets of source states, since the empty set is never put on the worklist.
-/

namespace Acceptors.Automaton

variable {α : Type} [DecidableEq α] {A : Automaton α} {start : State}

/-- The worklist of the search for labels after a number of steps, each of which pops a set. -/
def worklist (A : Automaton α) (start : State) (steps : Nat) : IndexedSearch StateSet :=
  (IndexedSearch.step (A.successors A.moves))^[steps] (.start [A.closure [start]])

theorem WellFormed.head?_queue_worklist (wf : A.WellFormed) (start : State) (steps : Nat) :
    (A.worklist start steps).queue.head? = (A.reachedSets start)[steps]? := by
  have agrees := (IndexedSearch.agrees_start [A.closure [start]]).iterate
    (A.successors A.moves) steps
  rw [worklist, agrees.queue_eq, Search.head?_queue_run (wf.reached_bounded start),
    reachedSets_eq_reach]

theorem WellFormed.queue_worklist_eq_nil_iff (wf : A.WellFormed) (start : State) (steps : Nat) :
    (A.worklist start steps).queue = [] ↔ (A.reachedSets start).length ≤ steps := by
  rw [← List.head?_eq_none_iff, wf.head?_queue_worklist, List.getElem?_eq_none_iff]

theorem WellFormed.length_reachedSets_lt (wf : A.WellFormed) (hlt : start < A.stateCount) :
    (A.reachedSets start).length < 2 ^ A.stateCount := by
  -- The empty set is not reached, and so it is one more set of states.
  have hnodup : (∅ :: A.reachedSets start).Nodup :=
    List.nodup_cons.2 ⟨wf.empty_not_mem_reachedSets hlt, wf.nodup_reachedSets start⟩
  refine StateSet.length_le_two_pow hnodup fun S hS q hq => ?_
  rcases List.mem_cons.1 hS with rfl | hS
  · exact absurd hq (StateSet.not_mem_empty q)
  · have hleads := ((wf.mem_reachedSets_iff_leadsTo hlt).1 hS).2
    obtain ⟨word, -, rfl⟩ := leadsTo_iff_after.1 hleads
    exact wf.lt_of_mem_after hq

theorem WellFormed.stateCount_determinize (wf : A.WellFormed) (hstart : A.start = some start)
    {complete : Bool} {naming : Naming} {d : Determinized α}
    (h : A.determinize complete naming = .ok d) :
    d.sink? = none ∧ d.automaton.stateCount = (A.reachedSets start).length ∨
      d.sink? ≠ none ∧ d.automaton.stateCount = (A.reachedSets start).length + 1 := by
  have hfresh := wf.empty_not_mem_reachedSets (wf.start_lt start hstart)
  have hsink : d.sink? = none ↔ ∅ ∉ d.labels := List.idxOf?_eq_none_iff
  rw [ne_eq, hsink, (wf.follows_determinize hstart h).stateCount_eq]
  obtain ⟨hlabels, -⟩ | ⟨hlabels, -⟩ := wf.labels_determinize hstart h
  · rw [hlabels]
    exact .inl ⟨hfresh, rfl⟩
  · rw [hlabels]
    exact .inr ⟨by simp, by simp⟩

/--
The worklist of a determinization runs empty.  Every derived state but the sink is popped exactly
once, and with the sink there are at most as many states as there are sets of source states.
-/
theorem determinize_pops_each_state_once (built : A.Built) (hstart : A.start = some start)
    (complete : Bool) (naming : Naming) :
    ∃ d, A.determinize complete naming = .ok d ∧ ∃ pops,
      (∀ steps, (A.worklist start steps).queue = [] ↔ pops ≤ steps) ∧
      (∀ limit, pops ≤ limit →
        IndexedSearch.reach (A.successors A.moves) limit [A.closure [start]] =
          A.reachedSets start) ∧
      (∀ steps < pops, ∃ S, (A.worklist start steps).queue.head? = some S ∧
        d.label? steps = some S ∧ d.sink? ≠ some steps) ∧
      (∀ s < d.automaton.stateCount, d.sink? ≠ some s →
        ∃! steps, (A.worklist start steps).queue.head? = d.label? s) ∧
      pops ≤ 2 ^ A.stateCount - 1 ∧
      (d.sink? = none → d.automaton.stateCount = pops ∧
        d.automaton.stateCount ≤ 2 ^ A.stateCount - 1) ∧
      (d.sink? ≠ none → d.automaton.stateCount = pops + 1 ∧
        d.automaton.stateCount ≤ 2 ^ A.stateCount) := by
  have wf := built.wellFormed
  have hlt := wf.start_lt start hstart
  obtain ⟨d, hd⟩ := exists_determinize hstart complete naming
  have follows := wf.follows_determinize hstart hd
  have hbound := wf.length_reachedSets_lt hlt
  refine ⟨d, hd, (A.reachedSets start).length, ?_, ?_, ?_, ?_, ?_, ?_, ?_⟩
  · exact wf.queue_worklist_eq_nil_iff start
  · intro limit hlimit
    rw [reachedSets_eq_reach] at hlimit ⊢
    rw [IndexedSearch.reach_eq, Search.reach_of_le (wf.reached_bounded start) hlimit]
  · intro steps hsteps
    have hpopped := List.getElem?_eq_getElem hsteps
    have hlabel := (wf.getElem?_reachedSets hstart hd).1 hpopped
    exact ⟨_, (wf.head?_queue_worklist start steps).trans hpopped, hlabel⟩
  · intro s hs hsink
    obtain ⟨S, hlabel⟩ := follows.exists_label hs
    have hreached := (wf.getElem?_reachedSets hstart hd).2 ⟨hlabel, hsink⟩
    rw [hlabel]
    refine ⟨s, (wf.head?_queue_worklist start s).trans hreached, fun steps hsteps => ?_⟩
    have hagain := (wf.head?_queue_worklist start steps).symm.trans hsteps
    have hinside := (List.getElem?_eq_some_iff.1 hreached).1
    exact ((List.getElem?_inj hinside (wf.nodup_reachedSets start)).1
      (hreached.trans hagain.symm)).symm
  · omega
  · intro hsink
    have hcount := (wf.stateCount_determinize hstart hd).resolve_right fun h => h.1 hsink
    exact ⟨hcount.2, by omega⟩
  · intro hsink
    have hcount := (wf.stateCount_determinize hstart hd).resolve_left fun h => hsink h.1
    exact ⟨hcount.2, by omega⟩

theorem pops_epsilonCycle :
    epsilonCycle.Built ∧ epsilonCycle.start = some 0 ∧
      ∃ d, epsilonCycle.determinize true .numbered = .ok d ∧ d.sink? ≠ none ∧
        d.automaton.stateCount = 3 ∧ (epsilonCycle.worklist 0 2).queue = [] := by
  refine ⟨built_epsilonCycle, rfl, ?_⟩
  obtain ⟨d, hd, pops, hempty, -, -, -, -, -, hcount⟩ :=
    determinize_pops_each_state_once built_epsilonCycle rfl true .numbered
  have hshape : (epsilonCycle.determinize true .numbered).map
      (fun d => (d.automaton.stateCount, d.sink?)) = .ok (3, some 2) := by decide
  rw [hd] at hshape
  obtain ⟨hthree, hsink⟩ : d.automaton.stateCount = 3 ∧ d.sink? = some 2 := by
    simpa [Except.map] using hshape
  have hpops := (hcount (by simp [hsink])).1
  exact ⟨d, hd, by simp [hsink], hthree, (hempty 2).2 (by omega)⟩

end Acceptors.Automaton
