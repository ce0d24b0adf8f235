import Acceptors.Closure.ByStack
import Acceptors.Proofs.ClosureAnswers
import Acceptors.Proofs.Marks
import Acceptors.Proofs.StateVectors

/-!
# Closing a list in place

While a list is closed, the marks are set of exactly the states met so far, and whatever left the
stack has its successors among them.  `Closing.Invariant` is what every round preserves.  A round
takes one state off the stack, and a state is put there only when it is met.  So there is one round
for each state met, and when the stack is empty, nothing is left to be met.
-/

namespace Acceptors

namespace Closing

variable {next : State → List State} {bound : Nat} {seeds : List State} {c : Closing}

/-- What the next round puts on the stack, in that order. -/
def pushed (next : State → List State) (c : Closing) : List State :=
  match c.stack with
  | [] => []
  | q :: _ => (c.marks.insertAll (next q)).1

/-- What holds of a closure in progress after any number of rounds. -/
structure Invariant (next : State → List State) (bound : Nat) (seeds : List State)
    (c : Closing) : Prop where
  bound_eq : c.marks.marked.size = bound
  isMarked_iff : ∀ q, c.marks.IsMarked q ↔ q ∈ c.met.toList
  met_nodup : c.met.toList.Nodup
  seeds_met : ∀ q ∈ seeds, q ∈ c.met.toList
  met_reached : ∀ q ∈ c.met.toList, Search.Reached next seeds q
  waiting_met : ∀ q ∈ c.stack, q ∈ c.met.toList
  left_closed : ∀ p ∈ c.met.toList, p ∉ c.stack → ∀ q ∈ next p, q < bound → q ∈ c.met.toList

theorem step_of_stack_eq_nil (h : c.stack = []) : c.step next = c := by
  obtain ⟨marks, met, stack⟩ := c
  cases h
  rfl

theorem met_step (next : State → List State) (c : Closing) :
    (c.step next).met.toList = c.met.toList ++ c.pushed next := by
  obtain ⟨marks, met, stack⟩ := c
  cases stack <;> simp [step, pushed]

theorem stack_step (next : State → List State) (c : Closing) :
    (c.step next).stack = (c.pushed next).reverse ++ c.stack.tail := by
  obtain ⟨marks, met, stack⟩ := c
  cases stack <;> simp [step, pushed]

theorem met_start (bound : Nat) (states : List State) :
    (start bound states).met.toList = (states.filter fun q => q < bound).eraseDups := by
  simp only [start, Marks.fresh_insertAll]
  congr 1
  refine List.filter_congr fun q _ => ?_
  rw [Bool.eq_iff_iff, Marks.isNew_insert]
  simp [Key.index]

theorem stack_start (bound : Nat) (states : List State) :
    (start bound states).stack = (start bound states).met.toList.reverse := rfl

/-! ## What a round preserves -/

theorem invariant_start (next : State → List State) (bound : Nat) (states : List State) :
    Invariant next bound (states.filter fun q => q < bound).eraseDups (start bound states) := by
  have hmet (q : State) :
      q ∈ (start bound states).met.toList ↔ q ∈ states ∧ q < bound := by
    simp [met_start, List.mem_eraseDups]
  constructor
  · simp [start]
  · intro q
    rw [hmet]
    simp only [start, Marks.isMarked_insertAll]
    simp [Key.index, and_comm]
  · exact met_start bound states ▸ nodup_eraseDups _
  · exact fun q hq => met_start bound states ▸ hq
  · exact fun q hq => .seed (met_start bound states ▸ hq)
  · exact fun q hq => List.mem_reverse.1 hq
  · intro p hp hleft
    exact absurd (by simpa [stack_start] using hp) hleft

section

variable {q r : State} {stack : List State}

theorem marks_step (hstack : c.stack = q :: stack) :
    (c.step next).marks = (c.marks.insertAll (next q)).2 := by
  obtain ⟨marks, met, _⟩ := c
  cases hstack
  rfl

theorem Invariant.mem_pushed (inv : Invariant next bound seeds c) (hstack : c.stack = q :: stack) :
    r ∈ c.pushed next ↔ r ∈ next q ∧ r < bound ∧ r ∉ c.met.toList := by
  simp only [pushed, hstack, Marks.mem_fresh_insertAll, inv.bound_eq]
  rw [← inv.isMarked_iff]
  rfl

theorem Invariant.mem_met_step (inv : Invariant next bound seeds c)
    (hstack : c.stack = q :: stack) :
    r ∈ (c.step next).met.toList ↔ r ∈ c.met.toList ∨ r ∈ next q ∧ r < bound := by
  rw [met_step, List.mem_append, inv.mem_pushed hstack]
  by_cases hmet : r ∈ c.met.toList <;> simp [hmet]

end

theorem Invariant.step (inv : Invariant next bound seeds c) :
    Invariant next bound seeds (c.step next) := by
  cases hstack : c.stack with
  | nil =>
      rw [step_of_stack_eq_nil hstack]
      exact inv
  | cons q stack =>
      have hmem (r : State) := inv.mem_met_step (r := r) hstack
      have hstay : ∀ r ∈ c.met.toList, r ∈ (c.step next).met.toList :=
        fun r hr => (hmem r).2 (.inl hr)
      have hq : q ∈ c.met.toList := inv.waiting_met q (by simp [hstack])
      have hwaiting (r : State) : r ∈ (c.step next).stack ↔ r ∈ c.pushed next ∨ r ∈ stack := by
        simp [stack_step, hstack]
      constructor
      · rw [marks_step hstack, Marks.size_marked_insertAll, inv.bound_eq]
      · intro r
        rw [marks_step hstack, Marks.isMarked_insertAll, inv.isMarked_iff, inv.bound_eq, hmem]
        simp [Key.index, and_comm]
      · rw [met_step]
        refine inv.met_nodup.append ?_ fun r hr hnew => ((inv.mem_pushed hstack).1 hnew).2.2 hr
        simpa only [pushed, hstack] using Marks.nodup_fresh_insertAll _ _
      · exact fun r hr => hstay r (inv.seeds_met r hr)
      · intro r hr
        rcases (hmem r).1 hr with hr | ⟨hr, -⟩
        · exact inv.met_reached r hr
        · exact .next (inv.met_reached q hq) hr
      · intro r hr
        rcases (hwaiting r).1 hr with hr | hr
        · rw [met_step]
          exact List.mem_append_right _ hr
        · exact hstay r (inv.waiting_met r (by simp [hstack, hr]))
      · intro p hp hleft r hr hlt
        obtain ⟨hnew, hrest⟩ := not_or.1 (mt (hwaiting p).2 hleft)
        rw [met_step, List.mem_append] at hp
        -- Only the state that is taken off the stack now has left it in this round.
        by_cases hpq : p = q
        · exact (hmem r).2 (.inr ⟨hpq ▸ hr, hlt⟩)
        · refine hstay r (inv.left_closed p (hp.resolve_right hnew) ?_ r hr hlt)
          simp [hstack, hpq, hrest]

theorem Invariant.iterate (inv : Invariant next bound seeds c) (rounds : Nat) :
    Invariant next bound seeds ((Closing.step next)^[rounds] c) := by
  induction rounds with
  | zero => exact inv
  | succ rounds ih =>
      rw [Function.iterate_succ_apply']
      exact ih.step

/-! ## Rounds -/

theorem met_iterate (next : State → List State) (c : Closing) (rounds : Nat) :
    ((step next)^[rounds] c).met.toList =
      c.met.toList ++ (List.range rounds).flatMap fun i => ((step next)^[i] c).pushed next := by
  induction rounds with
  | zero => simp
  | succ rounds ih =>
      rw [Function.iterate_succ_apply', met_step, ih, List.range_succ]
      simp

theorem size_met_step (next : State → List State) (h : c.stack ≠ []) :
    (c.step next).met.size + c.stack.length =
      c.met.size + (c.step next).stack.length + 1 := by
  have hpos := List.length_pos_iff.2 h
  have hmet := congrArg List.length (met_step next c)
  have hstack := congrArg List.length (stack_step next c)
  simp only [List.length_append, List.length_reverse, List.length_tail, Array.length_toList]
    at hmet hstack
  omega

/-- The stack is empty from some round on, and each round before that took a state off it. -/
theorem exists_rounds (next : State → List State) (c : Closing) :
    ∃ rounds, c.run next = (step next)^[rounds] c ∧
      (∀ i, ((step next)^[i] c).stack = [] ↔ rounds ≤ i) ∧
      (c.run next).met.size + c.stack.length = c.met.size + rounds := by
  fun_induction run next c with
  | case1 c hempty =>
      have hstack : c.stack = [] := List.isEmpty_iff.1 hempty
      refine ⟨0, rfl, fun i => ?_, by simp [hstack]⟩
      rw [Function.iterate_fixed (step_of_stack_eq_nil hstack)]
      simp [hstack]
  | case2 c hwaiting ih =>
      have hstack : c.stack ≠ [] := by simpa using hwaiting
      obtain ⟨rounds, hrun, hstacks, hsize⟩ := ih
      refine ⟨rounds + 1, hrun, fun i => ?_, ?_⟩
      · cases i with
        | zero => simp [hstack]
        | succ i => simp [hstacks]
      · have hstep := size_met_step next hstack
        omega

theorem stack_run (next : State → List State) (c : Closing) : (c.run next).stack = [] := by
  obtain ⟨rounds, hrun, hstacks, -⟩ := exists_rounds next c
  rw [hrun, hstacks]

theorem Invariant.run (inv : Invariant next bound seeds c) :
    Invariant next bound seeds (c.run next) := by
  obtain ⟨rounds, hrun, -⟩ := exists_rounds next c
  exact hrun ▸ inv.iterate rounds

/-- Nothing waits any more, so what was met has no successors but those that were met. -/
theorem Invariant.mem_met_run (inv : Invariant next bound seeds c)
    (hbound : ∀ p, ∀ q ∈ next p, q < bound) {q : State} :
    q ∈ (c.run next).met.toList ↔ Search.Reached next seeds q := by
  constructor
  · exact inv.run.met_reached q
  · intro h
    induction h with
    | seed hq => exact inv.run.seeds_met _ hq
    | next _ hq ih =>
        exact inv.run.left_closed _ ih (by simp [stack_run]) _ hq (hbound _ _ hq)

end Closing

namespace Automaton

variable {α : Type} {A : Automaton α}

/-- The states of a list that the automaton knows, each of them once and in order. -/
def knownOf (A : Automaton α) (states : List State) : List State :=
  (states.filter A.contains).eraseDups

theorem mem_knownOf {states : List State} {q : State} :
    q ∈ A.knownOf states ↔ q ∈ states ∧ q < A.stateCount := by
  simp [knownOf, List.mem_eraseDups, contains]

variable [DecidableEq α]

/-- The closure of a list in progress, after a number of rounds. -/
def closingAfter (A : Automaton α) (states : List State) (rounds : Nat) : Closing :=
  (Closing.step (A.targets · .epsilon))^[rounds] (.start A.stateCount states)

/-- What the round after this number of rounds puts on the stack. -/
def pushedAfter (A : Automaton α) (states : List State) (rounds : Nat) : List State :=
  (A.closingAfter states rounds).pushed (A.targets · .epsilon)

theorem stack_closingAfter_succ (A : Automaton α) (states : List State) (rounds : Nat) :
    (A.closingAfter states (rounds + 1)).stack =
      (A.pushedAfter states rounds).reverse ++ (A.closingAfter states rounds).stack.tail := by
  rw [closingAfter, Function.iterate_succ_apply', Closing.stack_step]
  rfl

theorem met_closingAfter_zero (A : Automaton α) (states : List State) :
    (A.closingAfter states 0).met.toList = A.knownOf states :=
  Closing.met_start A.stateCount states

theorem stack_closingAfter_zero (A : Automaton α) (states : List State) :
    (A.closingAfter states 0).stack = (A.knownOf states).reverse := by
  rw [← met_closingAfter_zero]
  rfl

theorem met_closingAfter (A : Automaton α) (states : List State) (rounds : Nat) :
    (A.closingAfter states rounds).met.toList =
      A.knownOf states ++ (List.range rounds).flatMap (A.pushedAfter states) := by
  rw [← met_closingAfter_zero]
  exact Closing.met_iterate _ _ rounds

/-- There are as many rounds as there are states in the closed list. -/
theorem rounds_closing (A : Automaton α) (states : List State) :
    A.closureByStack states =
        (A.closingAfter states (A.closureByStack states).length).met.toList ∧
      ∀ rounds, (A.closingAfter states rounds).stack = [] ↔
        (A.closureByStack states).length ≤ rounds := by
  obtain ⟨count, hrun, hstacks, hsize⟩ :=
    Closing.exists_rounds (A.targets · .epsilon) (.start A.stateCount states)
  have hcount : (A.closureByStack states).length = count := by
    rw [Closing.stack_start, List.length_reverse, Array.length_toList] at hsize
    rw [closureByStack_eq_run, Array.length_toList]
    omega
  rw [hcount]
  refine ⟨?_, hstacks⟩
  rw [closureByStack_eq_run, hrun]
  rfl

theorem invariant_closing (A : Automaton α) (states : List State) :
    Closing.Invariant (A.targets · .epsilon) A.stateCount (A.knownOf states)
      (.start A.stateCount states) :=
  Closing.invariant_start _ _ states

theorem nodup_closureByStack (A : Automaton α) (states : List State) :
    (A.closureByStack states).Nodup := by
  rw [closureByStack_eq_run]
  exact (A.invariant_closing states).run.met_nodup

theorem WellFormed.mem_closureByStack (wf : A.WellFormed) {states : List State} {q : State} :
    q ∈ A.closureByStack states ↔ ∃ p ∈ A.knownOf states, A.EpsilonReach p q := by
  have hbound : ∀ p, ∀ q ∈ A.targets p .epsilon, q < A.stateCount :=
    fun p q hq => wf.target_lt _ (mem_targets.1 hq)
  rw [closureByStack_eq_run, (A.invariant_closing states).mem_met_run hbound,
    reached_targets_iff]

theorem WellFormed.lt_of_mem_closureByStack (wf : A.WellFormed) {states : List State}
    {q : State} (h : q ∈ A.closureByStack states) : q < A.stateCount := by
  obtain ⟨p, hp, hreach⟩ := wf.mem_closureByStack.1 h
  exact wf.lt_of_epsilonReach hreach (mem_knownOf.1 hp).2

theorem WellFormed.vector_closureByStack (wf : A.WellFormed) (states : List State) :
    StateVector.ofStates (A.closureByStack states) = (A.closure states).vector := by
  rw [StateSet.ofStates_eq_vector]
  congr 1
  refine StateSet.ext fun q => ?_
  rw [StateSet.mem_ofList, wf.mem_closureByStack, wf.mem_closure]
  simp only [mem_knownOf, and_assoc]

theorem WellFormed.closureVectors_eq (wf : A.WellFormed) :
    A.closureVectors = A.closures.map StateSet.vector := by
  rw [closureVectors, closures_eq_map, List.map_map]
  exact List.map_congr_left fun q _ => wf.vector_closureByStack [q]

/--
The table of closures that marks and a stack find has one vector for each state.  It ascends and
holds exactly the states that epsilon transitions lead to.
-/
theorem WellFormed.closureVectors_exact (wf : A.WellFormed) :
    A.closureVectors.length = A.stateCount ∧
      ∀ q ∈ A.states, ∃ v, A.closureVectors[q]? = some v ∧ v.IsAscending ∧
        ∀ r, r ∈ v.states ↔ A.EpsilonReach q r := by
  rw [wf.closureVectors_eq, List.length_map]
  refine ⟨A.length_closures, fun q hq => ?_⟩
  have hlt : q < A.closures.length := by
    rw [length_closures]
    exact mem_states.1 hq
  have hC : A.closures[q]? = some A.closures[q] := List.getElem?_eq_getElem hlt
  have hvector := A.closures[q].represents_vector
  refine ⟨A.closures[q].vector, by rw [List.getElem?_map, hC, Option.map_some], hvector.ascending,
    fun r => ?_⟩
  rw [hvector.mem_iff, List.mem_toFinset, StateSet.mem_toList]
  exact wf.mem_of_getElem?_closures hC

/-- What comes after the known states was not among them, and so it takes a step to reach it. -/
theorem WellFormed.mem_later (wf : A.WellFormed) {states later : List State}
    (hclosed : A.closureByStack states = A.knownOf states ++ later) {q : State} :
    q ∈ later ↔ q ∉ A.knownOf states ∧ ∃ p ∈ A.knownOf states,
      Relation.TransGen (fun p q => ⟨p, .epsilon, q⟩ ∈ A.recent) p q := by
  have hmem : q ∈ A.knownOf states ∨ q ∈ later ↔ ∃ p ∈ A.knownOf states, A.EpsilonReach p q := by
    rw [← wf.mem_closureByStack, hclosed, List.mem_append]
  have hnodup := A.nodup_closureByStack states
  rw [hclosed] at hnodup
  constructor
  · intro hq
    have hnew : q ∉ A.knownOf states := fun hknown =>
      List.disjoint_of_nodup_append hnodup hknown hq
    obtain ⟨p, hp, hreach⟩ := hmem.1 (.inr hq)
    obtain rfl | htrans := Relation.reflTransGen_iff_eq_or_transGen.1 hreach
    · exact absurd hp hnew
    · exact ⟨hnew, p, hp, htrans⟩
  · rintro ⟨hnew, p, hp, htrans⟩
    exact (hmem.2 ⟨p, hp, htrans.to_reflTransGen⟩).resolve_left hnew

/--
A list is closed in as many rounds as it then has states, and these are different states of the
automaton.  The known ones of the list come first, in the order of their first occurrence, and then
exactly the others that one or more epsilon transitions lead to from them.  The stack begins with
the known states, and a round replaces one state by those that it adds to the list, so that
no state is ever put on the stack twice.  The set of the closed list is the closure.
-/
theorem closureByStack_extends_known (built : A.Built) (states : List State) :
    let known := (states.filter A.contains).eraseDups
    let closed := A.closureByStack states
    closed.Nodup ∧ (∀ q ∈ closed, q ∈ A.states) ∧
      (∃ later, closed = known ++ later ∧
        (∀ q, q ∈ later ↔ q ∉ known ∧
          ∃ p ∈ known, Relation.TransGen (fun p q => ⟨p, .epsilon, q⟩ ∈ A.recent) p q) ∧
        later = (List.range closed.length).flatMap (A.pushedAfter states)) ∧
      (A.closingAfter states 0).stack = known.reverse ∧
      (∀ rounds, (A.closingAfter states (rounds + 1)).stack =
        (A.pushedAfter states rounds).reverse ++ (A.closingAfter states rounds).stack.tail) ∧
      (∀ rounds, (A.closingAfter states rounds).stack = [] ↔ closed.length ≤ rounds) ∧
      closed = (A.closingAfter states closed.length).met.toList ∧
      StateVector.ofStates closed = (A.closure states).vector := by
  intro known closed
  have wf := built.wellFormed
  obtain ⟨hrounds, hstacks⟩ := A.rounds_closing states
  have hclosed : closed = known ++ _ := hrounds.trans (A.met_closingAfter states _)
  refine ⟨A.nodup_closureByStack states, fun q hq => ?_, ⟨_, hclosed, fun q => ?_, rfl⟩,
    A.stack_closingAfter_zero states, A.stack_closingAfter_succ states, hstacks, hrounds,
    wf.vector_closureByStack states⟩
  · exact mem_states.2 (wf.lt_of_mem_closureByStack hq)
  · exact wf.mem_later hclosed

theorem closureByStack_epsilonCycle :
    epsilonCycle.Built ∧ epsilonCycle.closureByStack [1, 7, 1] = [1, 0] ∧
      (epsilonCycle.closingAfter [1, 7, 1] 1).stack = [0] ∧
      (epsilonCycle.closingAfter [1, 7, 1] 2).stack = [] := by
  obtain ⟨-, -, -, -, -, hstacks, hclosed, -⟩ :=
    closureByStack_extends_known built_epsilonCycle [1, 7, 1]
  have hone : (epsilonCycle.closingAfter [1, 7, 1] 1).stack = [0] := by decide
  have htwo : (epsilonCycle.closingAfter [1, 7, 1] 2).stack = [] := by decide
  have hle := (hstacks 2).1 htwo
  have hlt := mt (hstacks 1).2 (by simp [hone])
  have hlength : (epsilonCycle.closureByStack [1, 7, 1]).length = 2 := by omega
  rw [hlength] at hclosed
  exact ⟨built_epsilonCycle, hclosed.trans (by decide), hone, htwo⟩

end Automaton

end Acceptors
