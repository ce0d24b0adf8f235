import Acceptors.Proofs.FirstDifference

/-!
# Differences in foreign symbols

The search for a difference tries words over the alphabet of the first automaton only.  A word with
any other symbol is rejected by that automaton, so that it makes a difference exactly if the second
automaton accepts it.  These overlooked words are all that the search misses.  An answer of the
search speaks for the words over both alphabets exactly if no word of the lengths in question is
overlooked.
-/

namespace Acceptors.Automaton

variable {α : Type} [DecidableEq α] {A B : Automaton α} {p q : State} {maxLength : Nat}
  {word : List α}

/-- The second automaton accepts the word, of which the first does not know all symbols. -/
structure Overlooks (A B : Automaton α) (word : List α) : Prop where
  foreign : ∃ a ∈ word, a ∉ A.alphabet
  accepted : B.accepts word = .ok true

theorem Overlooks.not_over_alphabet (h : A.Overlooks B word) : ¬ ∀ a ∈ word, a ∈ A.alphabet := by
  obtain ⟨a, ha, hforeign⟩ := h.foreign
  exact fun hover => hforeign (hover a ha)

/-! ## What is overlooked -/

theorem Overlooks.accepts_ne (h : A.Overlooks B word) (wfA : A.WellFormed)
    (hp : A.start = some p) : A.accepts word ≠ B.accepts word := by
  obtain ⟨a, ha, hforeign⟩ := h.foreign
  rw [wfA.accepts_foreign hp ha hforeign, h.accepted]
  simp

theorem Overlooks.over_alphabets (h : A.Overlooks B word) (wfB : B.WellFormed)
    (hq : B.start = some q) : ∀ a ∈ word, a ∈ A.alphabet ∨ a ∈ B.alphabet := by
  intro a ha
  by_contra hforeign
  have hrejected := wfB.accepts_foreign hq ha fun hB => hforeign (.inr hB)
  exact Bool.noConfusion (Except.ok.inj (hrejected.symm.trans h.accepted))

section

variable (wfA : A.WellFormed) (hp : A.start = some p) (hq : B.start = some q)

include wfA hp hq

theorem overlooks_of_accepts_ne (hne : A.accepts word ≠ B.accepts word)
    (hover : ¬ ∀ a ∈ word, a ∈ A.alphabet) : A.Overlooks B word := by
  obtain ⟨a, ha, hforeign⟩ : ∃ a ∈ word, a ∉ A.alphabet := by simpa using hover
  rw [wfA.accepts_foreign hp ha hforeign, accepts_of_start hq] at hne
  have haccepted : B.containsAccepting (B.after q word) = true := by simpa using hne
  exact ⟨⟨a, ha, hforeign⟩, by rw [accepts_of_start hq, haccepted]⟩

/-- Agreement over both alphabets is agreement over the first one with nothing overlooked. -/
theorem agree_over_both_iff (wfB : B.WellFormed) (P : List α → Prop) :
    (∀ w, P w → (∀ a ∈ w, a ∈ A.alphabet ∨ a ∈ B.alphabet) → A.accepts w = B.accepts w) ↔
      (∀ w, P w → (∀ a ∈ w, a ∈ A.alphabet) → A.accepts w = B.accepts w) ∧
        ∀ w, P w → ¬ A.Overlooks B w := by
  constructor
  · intro hagree
    refine ⟨fun w hw hover => hagree w hw fun a ha => .inl (hover a ha), fun w hw hlost => ?_⟩
    exact hlost.accepts_ne wfA hp (hagree w hw (hlost.over_alphabets wfB hq))
  · rintro ⟨hagree, hnone⟩ w hw -
    by_contra hne
    by_cases hover : ∀ a ∈ w, a ∈ A.alphabet
    · exact hne (hagree w hw hover)
    · exact hnone w hw (overlooks_of_accepts_ne wfA hp hq hne hover)

end

/-! ## Answers of the search -/

/--
The search finds the first difference over the alphabet of the first automaton.  That there is none,
and that the one found is as short as any, holds over both alphabets exactly if no word of the
lengths in question is overlooked.
-/
theorem findDifference_up_to_overlooked (hA : A.Built) (hB : B.Built) (hp : A.start = some p)
    (hq : B.start = some q) (maxLength : Nat) :
    (∃ found, A.findDifference B maxLength = .ok found) ∧
    (A.findDifference B maxLength = .ok none ↔
      ∀ w : List α, w.length ≤ maxLength → (∀ a ∈ w, a ∈ A.alphabet) →
        A.accepts w = B.accepts w) ∧
    (∀ w, A.findDifference B maxLength = .ok (some w) ↔
      w.length ≤ maxLength ∧ A.IsFirstDifferenceOver B w) ∧
    ((∀ w : List α, w.length ≤ maxLength → (∀ a ∈ w, a ∈ A.alphabet ∨ a ∈ B.alphabet) →
        A.accepts w = B.accepts w) ↔
      A.findDifference B maxLength = .ok none ∧
        ∀ w, w.length ≤ maxLength → ¬ A.Overlooks B w) ∧
    (∀ w, A.findDifference B maxLength = .ok (some w) →
      ((∀ v : List α, v.length < w.length → (∀ a ∈ v, a ∈ A.alphabet ∨ a ∈ B.alphabet) →
          A.accepts v = B.accepts v) ↔
        ∀ v, v.length < w.length → ¬ A.Overlooks B v)) ∧
    (A.findDifference B maxLength = .ok none ∧
        (∀ w, w.length ≤ maxLength → ¬ A.Overlooks B w) ↔
      B.findDifference A maxLength = .ok none ∧
        ∀ w, w.length ≤ maxLength → ¬ B.Overlooks A w) := by
  have wfA := hA.wellFormed
  have wfB := hB.wellFormed
  have hagreeA := agree_over_both_iff wfA hp hq wfB
  have hagreeB := agree_over_both_iff wfB hq hp wfA
  have hnoneA : A.findDifference B maxLength = .ok none ↔ _ := findDifference_eq_none_iff_over hp hq
  have hnoneB : B.findDifference A maxLength = .ok none ↔ _ := findDifference_eq_none_iff_over hq hp
  have hsome : ∀ w, A.findDifference B maxLength = .ok (some w) ↔
      w.length ≤ maxLength ∧ A.IsFirstDifferenceOver B w := fun w =>
    wfA.findDifference_eq_some_iff_over hp hq
  refine ⟨⟨_, findDifference_of_start hp hq maxLength⟩, hnoneA, hsome, ?_, ?_, ?_⟩
  · rw [hagreeA, hnoneA]
  · intro w hw
    rw [hagreeA]
    refine and_iff_right fun v hshorter hover => ?_
    by_contra hne
    have hle := ((hsome w).1 hw).2.le v hover hne
    exact absurd (place_lt_of_length_lt hshorter) hle.not_gt
  · rw [hnoneA, hnoneB, ← hagreeA, ← hagreeB]
    simp only [or_comm, eq_comm]

/-- All words over two symbols that hold at most one `a`. -/
def atMostOneA : Automaton Char where
  kind := .deterministic
  alphabet := ['a', 'b']
  start := some 0
  stateData := #[⟨true, none⟩, ⟨true, none⟩]
  recent := [⟨1, .symbol 'b', 1⟩, ⟨0, .symbol 'a', 1⟩, ⟨0, .symbol 'b', 0⟩]

theorem built_atMostOneA : atMostOneA.Built := by
  have hedits : (empty .deterministic ['a', 'b']).editAll [.addState ⟨true, none⟩,
      .addState ⟨true, none⟩, .setStart 0, .addTransition 0 (.symbol 'b') 0,
      .addTransition 0 (.symbol 'a') 1, .addTransition 1 (.symbol 'b') 1] = .ok atMostOneA := by
    rfl
  exact (Built.empty _ _).editAll hedits

theorem findDifference_up_to_overlooked_oneLoop :
    oneLoop.Built ∧ atMostOneA.Built ∧ oneLoop.start = some 0 ∧ atMostOneA.start = some 0 ∧
      (∀ w : List Char, w.length ≤ 1 → (∀ a ∈ w, a ∈ oneLoop.alphabet) →
        oneLoop.accepts w = atMostOneA.accepts w) ∧
      oneLoop.IsFirstDifferenceOver atMostOneA ['a', 'a'] ∧
      oneLoop.Overlooks atMostOneA ['b'] ∧ ¬ atMostOneA.Overlooks oneLoop ['a', 'a'] := by
  obtain ⟨-, hnone, -⟩ :=
    findDifference_up_to_overlooked built_oneLoop built_atMostOneA rfl rfl 1
  obtain ⟨-, -, hsome, -⟩ :=
    findDifference_up_to_overlooked built_oneLoop built_atMostOneA rfl rfl 2
  refine ⟨built_oneLoop, built_atMostOneA, rfl, rfl, hnone.1 (by decide),
    ((hsome _).1 (by decide)).2, ?_, ?_⟩
  · exact ⟨⟨'b', by decide, by decide⟩, by decide⟩
  · exact fun h => h.not_over_alphabet (by simp [atMostOneA])

/-- A difference can be found from one side and missed from the other, or found too late. -/
theorem findDifference_oneLoop_misses_b :
    oneLoop.Built ∧ atMostOneA.Built ∧ oneLoop.start = some 0 ∧ atMostOneA.start = some 0 ∧
      oneLoop.accepts ['b'] = .ok false ∧ atMostOneA.accepts ['b'] = .ok true ∧
      oneLoop.findDifference atMostOneA 1 = .ok none ∧
      atMostOneA.findDifference oneLoop 1 = .ok (some ['b']) ∧
      oneLoop.findDifference atMostOneA 2 = .ok (some ['a', 'a']) :=
  ⟨built_oneLoop, built_atMostOneA, rfl, rfl, by decide, by decide, by decide, by decide,
    by decide⟩

end Acceptors.Automaton
