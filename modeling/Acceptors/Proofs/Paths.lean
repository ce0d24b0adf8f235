import Acceptors.Proofs.Built
import Acceptors.Proofs.Runs

/-!
# Paths and runs

A path follows transitions one after the other and spells the symbols that it meets.  The run of a
word ends in exactly the states to which some path from the start spells the word.
-/

namespace Acceptors.Automaton

variable {α : Type}

/-- The transitions lead from one state to another under the labels, in their order. -/
inductive Path (A : Automaton α) : State → List (Label α) → State → Prop
  | nil (q : State) : Path A q [] q
  | cons {p q r : State} {label : Label α} {labels : List (Label α)}
      (step : ⟨p, label, q⟩ ∈ A.transitions) (rest : Path A q labels r) :
      Path A p (label :: labels) r

/-- The word that labels spell, the epsilons left out. -/
def spelled (labels : List (Label α)) : List α := labels.filterMap Label.symbol?

@[simp] theorem spelled_nil : spelled ([] : List (Label α)) = [] := rfl

@[simp] theorem spelled_symbol (a : α) (labels : List (Label α)) :
    spelled (.symbol a :: labels) = a :: spelled labels := rfl

@[simp] theorem spelled_epsilon (labels : List (Label α)) :
    spelled (.epsilon :: labels) = spelled labels := rfl

/-- Some path from one state to another spells the word. -/
def Reads (A : Automaton α) (p : State) (word : List α) (q : State) : Prop :=
  ∃ labels, A.Path p labels q ∧ spelled labels = word

variable {A : Automaton α}

theorem Reads.epsilon {p q r : State} {word : List α} (step : ⟨p, .epsilon, q⟩ ∈ A.recent)
    (h : A.Reads q word r) : A.Reads p word r := by
  obtain ⟨labels, path, rfl⟩ := h
  exact ⟨.epsilon :: labels, .cons (mem_transitions.2 step) path, rfl⟩

theorem Reads.symbol {p q r : State} {a : α} {word : List α}
    (step : ⟨p, .symbol a, q⟩ ∈ A.recent) (h : A.Reads q word r) : A.Reads p (a :: word) r := by
  obtain ⟨labels, path, rfl⟩ := h
  exact ⟨.symbol a :: labels, .cons (mem_transitions.2 step) path, rfl⟩

theorem Reads.of_epsilonReach {p q r : State} {word : List α} (hpq : A.EpsilonReach p q)
    (h : A.Reads q word r) : A.Reads p word r := by
  induction hpq using Relation.ReflTransGen.head_induction_on with
  | refl => exact h
  | head step _ ih => exact ih.epsilon step

theorem reads_nil_iff {p q : State} : A.Reads p [] q ↔ A.EpsilonReach p q := by
  constructor
  · rintro ⟨labels, path, hspelled⟩
    induction path with
    | nil q => exact .refl q
    | @cons p q r label labels step rest ih =>
        cases label with
        | symbol a => simp at hspelled
        | epsilon =>
            rw [spelled_epsilon] at hspelled
            exact Relation.ReflTransGen.head (mem_transitions.1 step) (ih hspelled)
  · exact fun h => .of_epsilonReach h ⟨[], .nil q, rfl⟩

theorem reads_cons_iff {p r : State} {a : α} {word : List α} :
    A.Reads p (a :: word) r ↔
      ∃ q, A.EpsilonReach p q ∧ ∃ q', ⟨q, .symbol a, q'⟩ ∈ A.recent ∧ A.Reads q' word r := by
  constructor
  · rintro ⟨labels, path, hspelled⟩
    induction path with
    | nil q => simp at hspelled
    | @cons p q r label labels step rest ih =>
        cases label with
        | symbol b =>
            obtain ⟨rfl, hrest⟩ := List.cons_eq_cons.1 hspelled
            exact ⟨p, .refl p, q, mem_transitions.1 step, labels, rest, hrest⟩
        | epsilon =>
            rw [spelled_epsilon] at hspelled
            obtain ⟨p', hreach, hread⟩ := ih hspelled
            exact ⟨p', Relation.ReflTransGen.head (mem_transitions.1 step) hreach, hread⟩
  · rintro ⟨q, hreach, q', step, hread⟩
    exact .of_epsilonReach hreach (hread.symbol step)

variable [DecidableEq α]

theorem WellFormed.mem_foldl_advance (wf : A.WellFormed) {s : StateSet} (closed : A.IsClosed s)
    {word : List α} {r : State} :
    r ∈ word.foldl A.advance s ↔ ∃ p ∈ s, A.Reads p word r := by
  -- The induction is over all closed sets: the set after a step is closed again.
  induction word generalizing s with
  | nil =>
      simp only [List.foldl_nil, reads_nil_iff]
      constructor
      · exact fun hr => ⟨r, hr, .refl r⟩
      · rintro ⟨p, hp, hreach⟩
        exact closed p hp r hreach
  | cons a word ih =>
      rw [List.foldl_cons, ih (wf.isClosed_advance s a)]
      constructor
      · rintro ⟨q', hq', hread⟩
        obtain ⟨p, hp, q, step, hreach⟩ := wf.mem_advance.1 hq'
        exact ⟨p, hp, (hread.of_epsilonReach hreach).symbol step⟩
      · rintro ⟨p, hp, hread⟩
        obtain ⟨q, hreach, q', step, hrest⟩ := reads_cons_iff.1 hread
        exact ⟨q', wf.mem_advance.2 ⟨q, closed p hp q hreach, q', step, .refl q'⟩, hrest⟩

theorem WellFormed.mem_after (wf : A.WellFormed) {q r : State} (hq : q < A.stateCount)
    {word : List α} : r ∈ A.after q word ↔ A.Reads q word r := by
  rw [after, wf.mem_foldl_advance (wf.isClosed_closure [q])]
  constructor
  · rintro ⟨p, hp, hread⟩
    exact hread.of_epsilonReach ((wf.mem_closure_singleton hq).1 hp)
  · exact fun hread => ⟨q, (wf.mem_closure_singleton hq).2 (.refl q), hread⟩

/-- A run ends in the states that paths lead to, and accepts if one of these accepts. -/
theorem run_iff_path (built : A.Built) {start : State} (hstart : A.start = some start)
    (word : List α) :
    (∃ active, A.run word = .ok active ∧ ∀ q, q ∈ active ↔ A.Reads start word q) ∧
      (A.accepts word = .ok true ↔ ∃ q, A.Reads start word q ∧ A.isAccepting q = .ok true) := by
  have wf := built.wellFormed
  have hafter : ∀ q, q ∈ A.after start word ↔ A.Reads start word q :=
    fun q => wf.mem_after (wf.start_lt start hstart)
  constructor
  · exact ⟨A.after start word, run_of_start hstart word, hafter⟩
  · rw [accepts_of_start hstart, Except.ok.injEq, containsAccepting_iff]
    simp only [hafter, isAccepting_eq_ok_true]

theorem paths_epsilonCycle :
    epsilonCycle.Built ∧ epsilonCycle.start = some 0 ∧
      (∃ q, epsilonCycle.Reads 0 ['a'] q ∧ epsilonCycle.isAccepting q = .ok true) ∧
      ∀ q, ¬ epsilonCycle.Reads 0 ['b'] q := by
  refine ⟨built_epsilonCycle, rfl, ?_, ?_⟩
  · exact (run_iff_path built_epsilonCycle rfl ['a']).2.1 (by decide)
  · intro q hq
    obtain ⟨active, hrun, hreads⟩ := (run_iff_path built_epsilonCycle rfl ['b']).1
    have hdead : active = ∅ := Except.ok.inj (hrun.symm.trans (by decide))
    exact StateSet.eq_empty_iff.1 hdead q ((hreads q).2 hq)

end Acceptors.Automaton
