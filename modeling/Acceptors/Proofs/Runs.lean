import Acceptors.Proofs.Closure

/-!
# Runs as folds

A run from a start state is the fold of one-symbol steps over the word, beginning with the closure
of the start.  The early end of a dead run does not show in it.
-/

namespace Acceptors.Automaton

variable {α : Type} {A : Automaton α}

theorem containsAccepting_iff {s : StateSet} :
    A.containsAccepting s ↔ ∃ q ∈ s, A.isAcceptingState q := by
  simp [containsAccepting, StateSet.mem_toList]

variable [DecidableEq α]

/-- The states that are active after a word, read from a state. -/
def after (A : Automaton α) (q : State) (word : List α) : StateSet :=
  word.foldl A.advance (A.closure [q])

theorem run_of_start {q : State} (hstart : A.start = some q) (word : List α) :
    A.run word = .ok (A.after q word) := by
  rw [run, initial, hstart]
  exact congrArg Except.ok (A.runFrom_eq_foldl _ word)

theorem run_eq_ok_iff {q : State} (hstart : A.start = some q) {word : List α} {s : StateSet} :
    A.run word = .ok s ↔ A.after q word = s := by
  rw [run_of_start hstart, Except.ok.injEq]

theorem accepts_of_start {q : State} (hstart : A.start = some q) (word : List α) :
    A.accepts word = .ok (A.containsAccepting (A.after q word)) := by
  rw [accepts, run_of_start hstart]
  rfl

@[simp] theorem after_nil (q : State) : A.after q [] = A.closure [q] := rfl

theorem after_concat (q : State) (word : List α) (a : α) :
    A.after q (word ++ [a]) = A.advance (A.after q word) a := by
  rw [after, List.foldl_append]
  rfl

theorem foldl_advance_empty (word : List α) : word.foldl A.advance ∅ = ∅ := by
  induction word with
  | nil => rfl
  | cons a word ih => rw [List.foldl_cons, advance_empty, ih]

theorem WellFormed.lt_of_mem_after (wf : A.WellFormed) {p q : State} {word : List α}
    (h : p ∈ A.after q word) : p < A.stateCount := by
  cases word using List.reverseRecOn with
  | nil => exact wf.lt_of_mem_closure h
  | append_singleton word a =>
      rw [after_concat] at h
      exact wf.lt_of_mem_advance h

theorem WellFormed.after_foreign (wf : A.WellFormed) (q : State) {word : List α} {a : α}
    (hmem : a ∈ word) (ha : a ∉ A.alphabet) : A.after q word = ∅ := by
  obtain ⟨before, rest, rfl⟩ := List.append_of_mem hmem
  rw [after, List.foldl_append, List.foldl_cons, wf.advance_foreign _ ha, foldl_advance_empty]

theorem WellFormed.run_foreign (wf : A.WellFormed) {q : State} (hstart : A.start = some q)
    {word : List α} {a : α} (hmem : a ∈ word) (ha : a ∉ A.alphabet) : A.run word = .ok ∅ := by
  rw [run_of_start hstart, wf.after_foreign q hmem ha]

theorem WellFormed.accepts_foreign (wf : A.WellFormed) {q : State} (hstart : A.start = some q)
    {word : List α} {a : α} (hmem : a ∈ word) (ha : a ∉ A.alphabet) :
    A.accepts word = .ok false := by
  rw [accepts_of_start hstart, wf.after_foreign q hmem ha]
  rfl

theorem WellFormed.word_over_alphabet (wf : A.WellFormed) {q : State} {word : List α}
    (hne : A.after q word ≠ ∅) : ∀ a ∈ word, a ∈ A.alphabet := by
  intro a ha
  by_contra hforeign
  exact hne (wf.after_foreign q ha hforeign)

end Acceptors.Automaton
