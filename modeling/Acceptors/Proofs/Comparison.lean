import Acceptors.Comparison
import Acceptors.Proofs.Built
import Acceptors.Proofs.Words

/-!
# Conclusive comparisons

A comparison of two automata looks for the first word of bounded length that one accepts and the
other does not.  The automata go through pairs of sets of active states, and equal pairs go on
equally.  So a word that tells the automata apart can be shortened until it visits no pair twice,
and a comparison up to the number of pairs says all there is to say.
-/

namespace Acceptors

theorem foldl_pair {α σ τ : Type} (next : σ → α → σ) (next' : τ → α → τ) (s : σ) (t : τ)
    (word : List α) :
    word.foldl (fun (s, t) a => (next s a, next' t a)) (s, t) =
      (word.foldl next s, word.foldl next' t) := by
  induction word generalizing s t with
  | nil => rfl
  | cons a word ih => exact ih (next s a) (next' t a)

namespace Automaton

variable {α : Type} [DecidableEq α] {A B : Automaton α} {p q : State}

/-! ## What a comparison finds -/

theorem findDifference_of_start (hp : A.start = some p) (hq : B.start = some q)
    (maxLength : Nat) :
    A.findDifference B maxLength = .ok ((A.words maxLength).find? fun word =>
      A.containsAccepting (A.after p word) != B.containsAccepting (B.after q word)) := by
  rw [findDifference, initial_eq_ok.2 hp, initial_eq_ok.2 hq, words, wordsUpTo,
    List.find?_flatMap]
  refine congrArg Except.ok ?_
  rw [firstAnswer?_eq_findSome?, ← List.range_eq_range']
  congr 1
  funext n
  rw [wordTo?_eq_find?]
  congr 1
  funext word
  rw [foldl_pair]
  rfl

theorem sameLanguage_eq_true_iff (hp : A.start = some p) (hq : B.start = some q)
    {maxLength : Nat} :
    A.sameLanguage B maxLength = .ok true ↔ A.sameAlphabet B ∧
      ∀ word : List α, word.length ≤ maxLength → (∀ a ∈ word, a ∈ A.alphabet) →
        A.containsAccepting (A.after p word) = B.containsAccepting (B.after q word) := by
  rw [sameLanguage, findDifference_of_start hp hq]
  by_cases halphabet : A.sameAlphabet B
  · rw [if_pos halphabet]
    simp [bind, Except.bind, pure, Except.pure, halphabet, words, mem_wordsUpTo]
  · simp [halphabet]

theorem WellFormed.sameAlphabet_iff (wfA : A.WellFormed) (wfB : B.WellFormed) :
    A.sameAlphabet B ↔ ∀ a, a ∈ A.alphabet ↔ a ∈ B.alphabet := by
  rw [sameAlphabet, List.isPerm_iff, List.perm_ext_iff_of_nodup wfA.alphabet_nodup
    wfB.alphabet_nodup]

/-! ## Short words -/

theorem WellFormed.leadsToAtMost_pairs (wfA : A.WellFormed) (wfB : B.WellFormed) (p q : State)
    (alphabet : List α) :
    LeadsToAtMost alphabet (fun (s, t) a => (A.advance s a, B.advance t a))
      (A.closure [p], B.closure [q]) (2 ^ (A.stateCount + B.stateCount)) := by
  intro pairs hnodup hreached
  refine StateSet.length_pairs_le_two_pow hnodup fun pair hpair => ?_
  obtain ⟨word, -, rfl⟩ := hreached pair hpair
  rw [foldl_pair]
  exact ⟨fun r hr => wfA.lt_of_mem_after hr, fun r hr => wfB.lt_of_mem_after hr⟩

theorem WellFormed.exists_short_word (wfA : A.WellFormed) (wfB : B.WellFormed) (p q : State)
    {word : List α} (hword : ∀ a ∈ word, a ∈ A.alphabet) :
    ∃ short : List α, (∀ a ∈ short, a ∈ A.alphabet) ∧
      short.length < 2 ^ (A.stateCount + B.stateCount) ∧
        A.after p short = A.after p word ∧ B.after q short = B.after q word := by
  obtain ⟨short, hshort, hlength, hsame⟩ :=
    Acceptors.exists_short_word (wfA.leadsToAtMost_pairs wfB p q A.alphabet) hword
  rw [foldl_pair, foldl_pair] at hsame
  obtain ⟨hA, hB⟩ := Prod.mk.inj hsame
  exact ⟨short, hshort, hlength, hA, hB⟩

/--
A comparison of words up to one less than the number of pairs of active sets is conclusive: it
succeeds only if the two automata accept the same words of any length.
-/
theorem sameLanguage_conclusive (hA : A.Built) (hB : B.Built) (hp : A.start = some p)
    (hq : B.start = some q) {maxLength : Nat}
    (hlong : 2 ^ (A.stateCount + B.stateCount) - 1 ≤ maxLength) :
    A.sameLanguage B maxLength = .ok true ↔
      (∀ a, a ∈ A.alphabet ↔ a ∈ B.alphabet) ∧
        ∀ word, ∃ accepted, A.accepts word = .ok accepted ∧ B.accepts word = .ok accepted := by
  have wfA := hA.wellFormed
  have wfB := hB.wellFormed
  rw [sameLanguage_eq_true_iff hp hq, wfA.sameAlphabet_iff wfB]
  refine and_congr_right fun halphabet => ?_
  simp only [accepts_of_start hp, accepts_of_start hq, Except.ok.injEq]
  constructor
  · intro hbounded word
    refine ⟨_, rfl, ?_⟩
    by_cases hword : ∀ a ∈ word, a ∈ A.alphabet
    · obtain ⟨short, hover, hlength, hafterA, hafterB⟩ :=
        wfA.exists_short_word wfB p q hword
      rw [← hafterA, ← hafterB]
      exact (hbounded short (by omega) hover).symm
    · -- Neither automaton survives a symbol that is in neither alphabet.
      obtain ⟨a, ha, hforeign⟩ : ∃ a ∈ word, a ∉ A.alphabet := by simpa using hword
      rw [wfA.after_foreign p ha hforeign, wfB.after_foreign q ha (mt (halphabet a).2 hforeign)]
      rfl
  · intro hall word _ _
    obtain ⟨accepted, hacceptedA, hacceptedB⟩ := hall word
    rw [hacceptedA, hacceptedB]

/-- All words over one symbol, read by a state that loops on it. -/
def oneLoop : Automaton Char where
  kind := .deterministic
  alphabet := ['a']
  start := some 0
  stateData := #[⟨true, none⟩]
  recent := [⟨0, .symbol 'a', 0⟩]

def loopWithDetour : Automaton Char where
  kind := .epsilonNondeterministic
  alphabet := ['a']
  start := some 0
  stateData := #[⟨true, none⟩, ⟨false, none⟩]
  recent := [⟨1, .symbol 'a', 1⟩, ⟨1, .epsilon, 0⟩, ⟨0, .epsilon, 1⟩]

theorem built_oneLoop : oneLoop.Built := by
  have hedits : (empty .deterministic ['a']).editAll [.addState ⟨true, none⟩, .setStart 0,
      .addTransition 0 (.symbol 'a') 0] = .ok oneLoop := by rfl
  exact (Built.empty _ _).editAll hedits

theorem built_loopWithDetour : loopWithDetour.Built := by
  have hedits : (empty .epsilonNondeterministic ['a']).editAll [.addState ⟨true, none⟩,
      .addState ⟨false, none⟩, .setStart 0, .addTransition 0 .epsilon 1,
      .addTransition 1 .epsilon 0, .addTransition 1 (.symbol 'a') 1] = .ok loopWithDetour := by rfl
  exact (Built.empty _ _).editAll hedits

theorem sameLanguage_loops :
    oneLoop.Built ∧ loopWithDetour.Built ∧ oneLoop.start = some 0 ∧
      loopWithDetour.start = some 0 ∧
      2 ^ (oneLoop.stateCount + loopWithDetour.stateCount) - 1 ≤ 7 ∧
      oneLoop.sameLanguage loopWithDetour 7 = .ok true ∧
      ∀ word, ∃ accepted, oneLoop.accepts word = .ok accepted ∧
        loopWithDetour.accepts word = .ok accepted := by
  have hsame : oneLoop.sameLanguage loopWithDetour 7 = .ok true := by decide
  exact ⟨built_oneLoop, built_loopWithDetour, rfl, rfl, by decide, hsame,
    ((sameLanguage_conclusive built_oneLoop built_loopWithDetour rfl rfl (by decide)).1 hsame).2⟩

end Automaton

end Acceptors
