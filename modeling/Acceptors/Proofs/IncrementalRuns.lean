import Acceptors.Proofs.Built
import Acceptors.Proofs.Runs

/-!
# Runs in pieces

A simulation is fed symbol by symbol or word by word, in any mixture.  It holds its active states as
a list, in the order in which they were found, and stops reading a word once the list is empty.
What it shows is what a run of all the symbols at once shows: no step fills an empty list, so that
the symbols which are skipped make no difference.
-/

namespace Acceptors

namespace Automaton

variable {α : Type} [DecidableEq α] {A : Automaton α}

@[simp] theorem closureList_nil : A.closureList [] = [] := by
  rw [closureList_eq_reach]
  cases A.stateCount <;> rfl

@[simp] theorem advanceList_nil (a : α) : A.advanceList [] a = [] := closureList_nil

theorem foldl_advanceList_nil (word : List α) : word.foldl A.advanceList [] = [] := by
  induction word with
  | nil => rfl
  | cons a word ih => rw [List.foldl_cons, advanceList_nil, ih]

theorem WellFormed.lt_of_mem_closureList (wf : A.WellFormed) {states : List State} {q : State}
    (h : q ∈ A.closureList states) : q < A.stateCount := by
  obtain ⟨p, -, hp, hreach⟩ := wf.mem_closureList.1 h
  exact wf.lt_of_epsilonReach hreach hp

theorem WellFormed.nodup_closureList (wf : A.WellFormed) (states : List State) :
    (A.closureList states).Nodup := by
  rw [closureList_eq_reach]
  exact Search.nodup_reach (wf.closure_bounded states)

theorem WellFormed.ofList_advanceList (wf : A.WellFormed) (states : List State) (a : α) :
    StateSet.ofList (A.advanceList states a) = A.advance (.ofList states) a := by
  apply StateSet.ext
  intro r
  have hlist : A.advanceList states a =
      A.closureList (states.flatMap fun q => A.targets q (.symbol a)) := by
    simp [advanceList, closureList]
  simp only [StateSet.mem_ofList, hlist, wf.mem_closureList, wf.mem_advance, List.mem_flatMap,
    mem_targets]
  constructor
  · rintro ⟨q, ⟨p, hp, ht⟩, -, hreach⟩
    exact ⟨p, hp, q, ht, hreach⟩
  · rintro ⟨p, hp, q, ht, hreach⟩
    exact ⟨q, ⟨p, hp, ht⟩, wf.target_lt _ ht, hreach⟩

theorem WellFormed.ofList_foldl_advanceList (wf : A.WellFormed) (states : List State)
    (word : List α) :
    StateSet.ofList (word.foldl A.advanceList states) =
      word.foldl A.advance (.ofList states) := by
  induction word generalizing states with
  | nil => rfl
  | cons a word ih => rw [List.foldl_cons, List.foldl_cons, ih, wf.ofList_advanceList]

/-- After any word the list is a closure, so that it holds known states, each of them once. -/
theorem exists_closureList_eq (states : List State) (word : List α) :
    ∃ moved, word.foldl A.advanceList (A.closureList states) = A.closureList moved := by
  induction word generalizing states with
  | nil => exact ⟨states, rfl⟩
  | cons a word ih => exact ih _

end Automaton

namespace Simulation

open Automaton

variable {α : Type} [DecidableEq α] {A : Automaton α} {s : Simulation α}

/-! ## What a simulation shows -/

omit [DecidableEq α] in
theorem isDead_iff : s.isDead ↔ s.found = [] := List.isEmpty_iff

omit [DecidableEq α] in
theorem isDead_iff_active : s.isDead ↔ s.active = ∅ := by
  simp [isDead_iff, StateSet.eq_empty_iff, active, List.eq_nil_iff_forall_not_mem]

omit [DecidableEq α] in
/-- It does not matter whether the list or the set is searched for an accepting state. -/
theorem isAccepting_eq (s : Simulation α) (A : Automaton α) :
    s.isAccepting A = A.containsAccepting s.active := by
  rw [Bool.eq_iff_iff, containsAccepting_iff]
  simp [isAccepting, active]

/-! ## Calls as steps -/

theorem found_steps (s : Simulation α) (word : List α) :
    (word.foldl (fun s a => s.step A a) s).found = word.foldl A.advanceList s.found := by
  induction word generalizing s with
  | nil => rfl
  | cons a word ih => exact ih (s.step A a)

theorem found_read (s : Simulation α) (word : List α) :
    (s.read A word).found = word.foldl A.advanceList s.found := by
  induction word generalizing s with
  | nil => rfl
  | cons a word ih =>
      rw [read]
      split
      · next hdead => rw [isDead_iff.1 hdead, foldl_advanceList_nil]
      · exact ih (s.step A a)

theorem found_call (s : Simulation α) (c : Call α) :
    (s.call A c).found = c.symbols.foldl A.advanceList s.found := by
  cases c with
  | step a => rfl
  | read word => exact found_read s word

theorem found_callAll (s : Simulation α) (calls : List (Call α)) :
    (s.callAll A calls).found = (calls.flatMap Call.symbols).foldl A.advanceList s.found := by
  induction calls generalizing s with
  | nil => rfl
  | cons c calls ih =>
      rw [List.flatMap_cons, List.foldl_append, ← found_call]
      exact ih (s.call A c)

theorem isDead_callAll (hdead : s.isDead) (calls : List (Call α)) : (s.callAll A calls).isDead := by
  rw [isDead_iff] at hdead ⊢
  rw [found_callAll, hdead, foldl_advanceList_nil]

theorem start_of_start {q : State} (hstart : A.start = some q) :
    Simulation.start A = .ok ⟨A.closureList [q], []⟩ := by
  rw [Simulation.start, initial_eq_ok.2 hstart]
  rfl

theorem active_callAll_start (wf : A.WellFormed) (q : State) (calls : List (Call α)) :
    (callAll ⟨A.closureList [q], []⟩ A calls).active = A.after q (calls.flatMap Call.symbols) := by
  rw [active, found_callAll, wf.ofList_foldl_advanceList]
  rfl

/--
Whatever calls feed a simulation, it shows the run of all their symbols.  Its active states are
states of the automaton, each listed once.  To read a word, with the early end, is to step through
all of it, and a dead simulation stays dead.
-/
theorem callAll_agrees_with_run (built : A.Built) {start : State} (hstart : A.start = some start)
    (calls : List (Call α)) :
    ∃ s active, (Simulation.start A).map (·.callAll A calls) = .ok s ∧
      A.run (calls.flatMap Call.symbols) = .ok active ∧
      s.active = active ∧
      (s.isDead ↔ active = ∅) ∧
      A.accepts (calls.flatMap Call.symbols) = .ok (s.isAccepting A) ∧
      s.isAccepting A = A.containsAccepting active ∧
      ((∀ q ∈ s.found, A.contains q) ∧ s.found.Nodup) ∧
      (∀ word, (s.read A word).found = (word.foldl (fun t a => t.step A a) s).found) ∧
      (s.isDead → ∀ more, (s.callAll A more).isDead) := by
  have wf := built.wellFormed
  have hactive := active_callAll_start wf start calls
  refine ⟨_, _, congrArg _ (start_of_start hstart), run_of_start hstart _, hactive, ?_, ?_, ?_, ?_,
    ?_, ?_⟩
  · rw [← hactive]
    exact isDead_iff_active
  · rw [accepts_of_start hstart, isAccepting_eq, hactive]
  · rw [isAccepting_eq, hactive]
  · obtain ⟨moved, hmoved⟩ := exists_closureList_eq (A := A) [start] (calls.flatMap Call.symbols)
    rw [found_callAll, hmoved]
    exact ⟨fun q hq => contains_iff.2 (wf.lt_of_mem_closureList hq), wf.nodup_closureList moved⟩
  · intro word
    rw [found_read, found_steps]
  · exact fun hdead more => isDead_callAll hdead more

theorem callAll_epsilonCycle :
    epsilonCycle.Built ∧ epsilonCycle.start = some 0 ∧
      ∃ s, (Simulation.start epsilonCycle).map
          (·.callAll epsilonCycle [.read ['a', 'b'], .step 'a', .read ['c', 'a'], .step 'b']) =
        .ok s ∧ s.isDead ∧ epsilonCycle.run ['a', 'b', 'a', 'c', 'a', 'b'] = .ok s.active := by
  refine ⟨built_epsilonCycle, rfl, ?_⟩
  obtain ⟨s, active, hs, hrun, hactive, hdead, -⟩ := callAll_agrees_with_run built_epsilonCycle rfl
    [.read ['a', 'b'], .step 'a', .read ['c', 'a'], .step 'b']
  have hempty : active = ∅ := Except.ok.inj (hrun.symm.trans (by decide))
  exact ⟨s, hs, hdead.2 hempty, hactive ▸ hrun⟩

end Simulation

end Acceptors
