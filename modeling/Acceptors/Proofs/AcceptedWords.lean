import Acceptors.Proofs.Built
import Acceptors.Proofs.Runs
import Acceptors.Proofs.Words

/-!
# The words that are accepted

The enumeration of words holds every word over the alphabet up to a length, once and in shortlex
order.  The accepted words are those of them that a run accepts.  As a run over a foreign symbol
dies, no accepted word is missed for being outside the enumeration.
-/

namespace Acceptors.Automaton

variable {α : Type} [DecidableEq α] {A : Automaton α} {start : State} {word : List α}

omit [DecidableEq α] in
theorem mem_words {maxLength : Nat} :
    word ∈ A.words maxLength ↔ word.length ≤ maxLength ∧ ∀ a ∈ word, a ∈ A.alphabet :=
  mem_wordsUpTo

theorem WellFormed.pairwise_words (wf : A.WellFormed) (maxLength : Nat) :
    (A.words maxLength).Pairwise fun v w => place A.alphabet v < place A.alphabet w :=
  pairwise_wordsUpTo wf.alphabet_nodup maxLength

theorem WellFormed.nodup_words (wf : A.WellFormed) (maxLength : Nat) :
    (A.words maxLength).Nodup := by
  refine (wf.pairwise_words maxLength).imp ?_
  rintro v w hlt rfl
  exact lt_irrefl _ hlt

/-- The search carries the active states along and comes to the same words as one run for each. -/
theorem acceptedWords_of_start (hstart : A.start = some start) (maxLength : Nat) :
    A.acceptedWords maxLength =
      .ok ((A.words maxLength).filter fun word => A.accepts word = .ok true) := by
  have haccepts : ∀ word, decide (A.accepts word = .ok true) =
      A.containsAccepting (word.foldl A.moves.advance (A.moves.closure [start])) := by
    intro word
    rw [accepts_of_start hstart, Bool.eq_iff_iff, decide_eq_true_iff, Except.ok.injEq]
    rfl
  rw [acceptedWords, initial_eq_ok.2 hstart, words, wordsUpTo, List.filter_flatMap]
  simp only [haccepts, ← wordsTo_eq_filter]
  rfl

theorem acceptedWords_of_no_start (hnone : A.start = none) (maxLength : Nat) :
    A.acceptedWords maxLength = .error .noStartState := by
  rw [acceptedWords, initial_of_no_start hnone]
  rfl

theorem WellFormed.over_alphabet_of_accepts (wf : A.WellFormed) (hstart : A.start = some start)
    (h : A.accepts word = .ok true) : ∀ a ∈ word, a ∈ A.alphabet := by
  rw [accepts_of_start hstart, Except.ok.injEq, containsAccepting_iff] at h
  obtain ⟨q, hq, -⟩ := h
  exact wf.word_over_alphabet (StateSet.nonempty_of_mem hq)

theorem WellFormed.mem_acceptedWords (wf : A.WellFormed) (hstart : A.start = some start)
    {maxLength : Nat} {accepted : List (List α)} (h : A.acceptedWords maxLength = .ok accepted) :
    word ∈ accepted ↔ word.length ≤ maxLength ∧ A.accepts word = .ok true := by
  rw [acceptedWords_of_start hstart, Except.ok.injEq] at h
  rw [← h, List.mem_filter, mem_words, decide_eq_true_iff]
  constructor
  · rintro ⟨⟨hlength, -⟩, haccepted⟩
    exact ⟨hlength, haccepted⟩
  · rintro ⟨hlength, haccepted⟩
    exact ⟨⟨hlength, wf.over_alphabet_of_accepts hstart haccepted⟩, haccepted⟩

/--
The words up to a length are enumerated completely, without repetition and in shortlex order.  The
accepted words are those that are accepted, over whatever symbols, in the same order.
-/
theorem words_and_acceptedWords_exact (built : A.Built) (maxLength : Nat) :
    (∀ word, word ∈ A.words maxLength ↔
      word.length ≤ maxLength ∧ ∀ a ∈ word, a ∈ A.alphabet) ∧
    (A.words maxLength).Nodup ∧
    ((A.words maxLength).Pairwise fun v w => place A.alphabet v < place A.alphabet w) ∧
    (∀ start, A.start = some start → ∃ accepted, A.acceptedWords maxLength = .ok accepted ∧
      (accepted = (A.words maxLength).filter fun word => A.accepts word = .ok true) ∧
      ∀ word, word ∈ accepted ↔ word.length ≤ maxLength ∧ A.accepts word = .ok true) ∧
    (A.start = none → A.acceptedWords maxLength = .error .noStartState) := by
  have wf := built.wellFormed
  refine ⟨fun word => mem_words, wf.nodup_words maxLength, wf.pairwise_words maxLength, ?_, ?_⟩
  · intro start hstart
    have haccepted := acceptedWords_of_start hstart maxLength
    exact ⟨_, haccepted, rfl, fun word => wf.mem_acceptedWords hstart haccepted⟩
  · exact fun hnone => acceptedWords_of_no_start hnone maxLength

/-- Words that end in `a`, over an alphabet in which `b` was listed first, and twice. -/
def lastIsA : Automaton Char where
  kind := .nondeterministic
  alphabet := ['b', 'a']
  start := some 0
  stateData := #[⟨false, none⟩, ⟨true, none⟩]
  recent := [⟨0, .symbol 'a', 1⟩, ⟨0, .symbol 'a', 0⟩, ⟨0, .symbol 'b', 0⟩]

theorem built_lastIsA : lastIsA.Built := by
  have hedits : (empty .nondeterministic ['b', 'a', 'b']).editAll [.addState ⟨false, none⟩,
      .addState ⟨true, none⟩, .setStart 0, .addTransition 0 (.symbol 'b') 0,
      .addTransition 0 (.symbol 'a') 0, .addTransition 0 (.symbol 'a') 1] = .ok lastIsA := by rfl
  exact (Built.empty _ _).editAll hedits

theorem words_and_acceptedWords_lastIsA :
    lastIsA.Built ∧ lastIsA.start = some 0 ∧
      lastIsA.words 2 = [[], ['b'], ['a'], ['b', 'b'], ['b', 'a'], ['a', 'b'], ['a', 'a']] ∧
      (lastIsA.words 2).Nodup ∧ ['c'] ∉ lastIsA.words 2 ∧
      lastIsA.acceptedWords 2 = .ok [['a'], ['b', 'a'], ['a', 'a']] := by
  obtain ⟨hmem, hnodup, -, haccepted, -⟩ := words_and_acceptedWords_exact built_lastIsA 2
  obtain ⟨accepted, hok, hfilter, -⟩ := haccepted 0 rfl
  refine ⟨built_lastIsA, rfl, by decide, hnodup, ?_, ?_⟩
  · exact fun h => absurd (((hmem ['c']).1 h).2 'c' (by simp)) (by decide)
  · rw [hok, hfilter]
    decide

end Acceptors.Automaton
