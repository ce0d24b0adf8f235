import Acceptors.Proofs.AcceptedWords

/-!
# The strict check of words

A run never looks at the alphabet, and the strict check never looks at the transitions.  They agree
all the same: a symbol that the check refuses has no transition, so that a run which meets it dies
and accepts nothing.  What is accepted therefore passes the check.
-/

namespace Acceptors.Automaton

variable {α : Type} [DecidableEq α] {A : Automaton α} {word : List α} {a : α}

/-- Of the symbols of the word that are not in the alphabet, the first. -/
def IsFirstForeign (A : Automaton α) (word : List α) (a : α) : Prop :=
  ∃ before rest, word = before ++ a :: rest ∧ (∀ b ∈ before, b ∈ A.alphabet) ∧ a ∉ A.alphabet

/-! ## The checks one by one -/

theorem checkLabel_symbol_eq_error {refusal : Refusal α} :
    A.checkLabel (.symbol a) = .error refusal ↔ a ∉ A.alphabet ∧ refusal = .foreignSymbol a := by
  by_cases ha : a ∈ A.alphabet <;> simp [checkLabel, hasSymbol, ha, eq_comm]

omit [DecidableEq α] in
theorem discard_initial :
    discard A.initial = match A.start with
      | some _ => .ok ()
      | none => .error .noStartState := by
  unfold initial
  cases A.start <;> rfl

omit [DecidableEq α] in
theorem discard_initial_eq_ok :
    discard A.initial = .ok () ↔ ∃ start, A.start = some start := by
  rw [discard_initial]
  cases A.start <;> simp

omit [DecidableEq α] in
theorem discard_initial_eq_error {refusal : Refusal α} :
    discard A.initial = .error refusal ↔ A.start = none ∧ refusal = .noStartState := by
  rw [discard_initial]
  cases A.start <;> simp [eq_comm]

/-! ## The check of a word -/

theorem checkWord_eq_ok :
    A.checkWord word = .ok () ↔
      (∀ a ∈ word, a ∈ A.alphabet) ∧ ∃ start, A.start = some start := by
  rw [checkWord, checked_bind_eq_ok, discard_initial_eq_ok]
  simp only [forM_eq_ok, checkLabel_eq_ok, Permits]

theorem checkWord_eq_foreignSymbol :
    A.checkWord word = .error (.foreignSymbol a) ↔ A.IsFirstForeign word a := by
  rw [checkWord, checked_bind_eq_error, discard_initial_eq_error]
  simp only [forM_eq_error, checkLabel_eq_ok, checkLabel_symbol_eq_error, Permits]
  simp [IsFirstForeign]

theorem checkWord_eq_noStartState :
    A.checkWord word = .error .noStartState ↔
      (∀ a ∈ word, a ∈ A.alphabet) ∧ A.start = none := by
  rw [checkWord, checked_bind_eq_error, discard_initial_eq_error]
  simp only [forM_eq_error, forM_eq_ok, checkLabel_eq_ok, checkLabel_symbol_eq_error, Permits]
  simp

theorem exists_start_of_accepts {accepted : Bool} (h : A.accepts word = .ok accepted) :
    ∃ start, A.start = some start := by
  obtain ⟨active, hrun, -⟩ := bind_eq_ok.1 h
  obtain ⟨start, hstart, -⟩ := bind_eq_ok.1 hrun
  exact ⟨start, initial_eq_ok.1 hstart⟩

/--
The strict check names the first foreign symbol, and asks for a start state after all symbols have
passed.  A run of a word with a foreign symbol dies wherever the symbol stands, so that no word is
accepted that the check would refuse.
-/
theorem checkWord_fails_closed [Letter α] (built : A.Built) (word : List α) :
    (∀ a, A.checkWord word = .error (.foreignSymbol a) ↔ A.IsFirstForeign word a) ∧
    (A.checkWord word = .error .noStartState ↔
      (∀ a ∈ word, a ∈ A.alphabet) ∧ A.start = none) ∧
    (A.checkWord word = .ok () ↔
      (∀ a ∈ word, a ∈ A.alphabet) ∧ ∃ start, A.start = some start) ∧
    (∀ a, A.IsFirstForeign word a → (A.checkWord word).mapError Refusal.message =
      .error ("invalid symbol: " ++ Letter.quote a ++ " is not part of the alphabet")) ∧
    (∀ start, A.start = some start → (∃ a ∈ word, a ∉ A.alphabet) →
      A.run word = .ok ∅ ∧ A.accepts word = .ok false) ∧
    (A.accepts word = .ok true → A.checkWord word = .ok ()) := by
  have wf := built.wellFormed
  refine ⟨fun a => checkWord_eq_foreignSymbol, checkWord_eq_noStartState, checkWord_eq_ok, ?_, ?_,
    ?_⟩
  · intro a ha
    rw [checkWord_eq_foreignSymbol.2 ha]
    rfl
  · rintro start hstart ⟨a, hmem, ha⟩
    exact ⟨wf.run_foreign hstart hmem ha, wf.accepts_foreign hstart hmem ha⟩
  · intro haccepted
    obtain ⟨start, hstart⟩ := exists_start_of_accepts haccepted
    exact checkWord_eq_ok.2 ⟨wf.over_alphabet_of_accepts hstart haccepted, start, hstart⟩

theorem checkWord_fails_closed_epsilonCycle :
    epsilonCycle.Built ∧ epsilonCycle.start = some 0 ∧
      epsilonCycle.IsFirstForeign ['a', 'c', 'd'] 'c' ∧
      epsilonCycle.checkWord ['a', 'c', 'd'] = .error (.foreignSymbol 'c') ∧
      (epsilonCycle.checkWord ['a', 'c', 'd']).mapError Refusal.message =
        .error ("invalid symbol: " ++ Letter.quote 'c' ++ " is not part of the alphabet") ∧
      epsilonCycle.run ['a', 'c', 'd'] = .ok ∅ ∧
      epsilonCycle.accepts ['a', 'c', 'd'] = .ok false ∧
      epsilonCycle.checkWord ['a', 'b'] = .ok () ∧ epsilonCycle.accepts ['a', 'b'] = .ok false ∧
      (empty .deterministic ['a']).Built ∧
        (empty .deterministic ['a']).checkWord ['a'] = .error .noStartState := by
  have hfirst : epsilonCycle.IsFirstForeign ['a', 'c', 'd'] 'c' :=
    ⟨['a'], ['d'], rfl, by simp [epsilonCycle], by simp [epsilonCycle]⟩
  obtain ⟨hforeign, -, -, hmessage, hdead, -⟩ :=
    checkWord_fails_closed built_epsilonCycle ['a', 'c', 'd']
  obtain ⟨hrun, haccepts⟩ := hdead 0 rfl ⟨'c', by simp, by simp [epsilonCycle]⟩
  obtain ⟨-, -, hpassed, -⟩ := checkWord_fails_closed built_epsilonCycle ['a', 'b']
  obtain ⟨-, hnone, -⟩ := checkWord_fails_closed (Built.empty .deterministic ['a']) ['a']
  exact ⟨built_epsilonCycle, rfl, hfirst, (hforeign 'c').2 hfirst, hmessage 'c' hfirst, hrun,
    haccepts, hpassed.2 ⟨by simp [epsilonCycle], 0, rfl⟩, by decide, .empty _ _,
    hnone.2 ⟨by simp [empty], rfl⟩⟩

end Acceptors.Automaton
