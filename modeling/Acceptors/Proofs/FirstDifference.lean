import Acceptors.Proofs.Comparison
import Mathlib.Order.Defs.LinearOrder

/-!
# First differences

A comparison finds the least word, in shortlex order, that one of two automata accepts and the other
does not, if one is short enough.  Words with foreign symbols are accepted by neither, so that the
words over the alphabet are enough.  An assertion goes through the words on its own and comes to the
same word, together with the side that accepts it.
-/

namespace Acceptors

section Scan

variable {β κ τ : Type} {items : List β}

/-- In an ascending list the first item with a property is the least one. -/
theorem find?_eq_some_iff_least [LinearOrder κ] {key : β → κ}
    (h : items.Pairwise fun b c => key b < key c) {p : β → Bool} {b : β} :
    items.find? p = some b ↔ b ∈ items ∧ p b ∧ ∀ c ∈ items, p c → key b ≤ key c := by
  have hleast : ∀ {b}, items.find? p = some b → ∀ c ∈ items, p c → key b ≤ key c := by
    intro b hb c hc hp
    obtain ⟨-, before, later, rfl, hbefore⟩ := List.find?_eq_some_iff_append.1 hb
    rw [List.mem_append, List.mem_cons] at hc
    rcases hc with hc | rfl | hc
    · have hnot := hbefore c hc
      simp [hp] at hnot
    · exact le_refl _
    · exact ((List.pairwise_cons.1 (List.pairwise_append.1 h).2.1).1 c hc).le
  constructor
  · intro hb
    exact ⟨List.mem_of_find?_eq_some hb, List.find?_some hb, hleast hb⟩
  · rintro ⟨hmem, hp, hle⟩
    obtain ⟨c, hc⟩ := Option.isSome_iff_exists.1 (List.find?_isSome.2 ⟨b, hmem, hp⟩)
    have hcmem : c ∈ items := List.mem_of_find?_eq_some hc
    have hkeys : (items.map key).Nodup := List.pairwise_map.2 (h.imp ne_of_lt)
    have hkey : key c = key b := (hleast hc b hmem hp).antisymm (hle c hcmem (List.find?_some hc))
    rw [hc, List.inj_on_of_nodup_map hkeys hcmem hmem hkey]

theorem findSome?_judged (judge : β → Option τ) :
    items.findSome? (fun b => (judge b).map (b, ·)) =
      (items.find? fun b => (judge b).isSome).bind fun b => (judge b).map (b, ·) := by
  induction items with
  | nil => rfl
  | cons b items ih => cases h : judge b <;> simp [h, ih]

end Scan

variable {α : Type} [DecidableEq α]

namespace Side

/-- The one of two automata that stands on the side. -/
def pick (side : Side) (A B : Automaton α) : Automaton α :=
  match side with
  | a => A
  | b => B

theorem isSome_alone? (inA inB : Bool) : (alone? inA inB).isSome = (inA != inB) := by
  cases inA <;> cases inB <;> rfl

end Side

namespace Automaton

variable {A B : Automaton α} {p q : State} {maxLength : Nat} {word : List α}

/-- The word tells the automata apart, and no word that comes before it does. -/
structure IsFirstDifference (A B : Automaton α) (word : List α) : Prop where
  accepts_ne : A.accepts word ≠ B.accepts word
  le : ∀ other, A.accepts other ≠ B.accepts other →
    place A.alphabet word ≤ place A.alphabet other

/-- Of the words over the alphabet of the first automaton, the first that tells the two apart. -/
structure IsFirstDifferenceOver (A B : Automaton α) (word : List α) : Prop where
  over_alphabet : ∀ a ∈ word, a ∈ A.alphabet
  accepts_ne : A.accepts word ≠ B.accepts word
  le : ∀ other, (∀ a ∈ other, a ∈ A.alphabet) → A.accepts other ≠ B.accepts other →
    place A.alphabet word ≤ place A.alphabet other

/-! ## Automata with start states -/

section

variable (hp : A.start = some p) (hq : B.start = some q)

include hp hq

theorem accepts_ne_iff : A.accepts word ≠ B.accepts word ↔
    (A.containsAccepting (A.after p word) != B.containsAccepting (B.after q word)) = true := by
  rw [accepts_of_start hp, accepts_of_start hq, ne_eq, Except.ok.injEq, bne_iff_ne]

theorem alone?_eq_some_iff {side : Side} :
    Side.alone? (A.containsAccepting (A.after p word)) (B.containsAccepting (B.after q word)) =
      some side ↔
        (side.pick A B).accepts word = .ok true ∧
          (side.other.pick A B).accepts word = .ok false := by
  cases side <;>
    simp only [Side.pick, Side.other, accepts_of_start hp, accepts_of_start hq, Except.ok.injEq] <;>
    cases A.containsAccepting (A.after p word) <;>
    cases B.containsAccepting (B.after q word) <;> simp [Side.alone?]

theorem sameLanguage_of_start (halphabet : A.sameAlphabet B) (maxLength : Nat) :
    ∃ found, A.findDifference B maxLength = .ok found ∧
      A.sameLanguage B maxLength = .ok found.isNone := by
  refine ⟨_, findDifference_of_start hp hq maxLength, ?_⟩
  rw [sameLanguage, if_pos halphabet, findDifference_of_start hp hq]
  rfl

/-- The assertion comes to the first difference, and to the side that accepts it. -/
theorem assertSameLanguage_of_start (halphabet : A.sameAlphabet B) {found : Option (List α)}
    (hfound : A.findDifference B maxLength = .ok found) :
    assertSameLanguage A B maxLength =
      match found.bind fun word =>
        (Side.alone? (A.containsAccepting (A.after p word))
          (B.containsAccepting (B.after q word))).map (word, ·) with
      | some (w, side) => .error (.word w side)
      | none => .ok () := by
  rw [findDifference_of_start hp hq, Except.ok.injEq] at hfound
  simp only [← Side.isSome_alone?] at hfound
  rw [assertSameLanguage, if_pos halphabet, hp, hq, ← hfound, ← findSome?_judged, words,
    wordsUpTo, findSome?_flatMap]
  simp only [firstAnswer?_eq_findSome?, ← List.range_eq_range', judgedWord?_eq_findSome?,
    foldl_pair]
  rfl

theorem assertSameLanguage_eq_ok_iff (halphabet : A.sameAlphabet B) :
    assertSameLanguage A B maxLength = .ok () ↔ A.findDifference B maxLength = .ok none := by
  obtain ⟨found, hfound, -⟩ := sameLanguage_of_start hp hq halphabet maxLength
  rw [assertSameLanguage_of_start hp hq halphabet hfound, hfound]
  cases found with
  | none => simp
  | some w =>
      have hdiffer : A.containsAccepting (A.after p w) != B.containsAccepting (B.after q w) := by
        rw [findDifference_of_start hp hq, Except.ok.injEq] at hfound
        have htold := List.find?_some hfound
        exact htold
      obtain ⟨side, hside⟩ := Option.isSome_iff_exists.1
        ((Side.isSome_alone? _ _).trans hdiffer)
      simp [hside]

theorem assertSameLanguage_eq_error_iff (halphabet : A.sameAlphabet B) {mismatch : Mismatch α} :
    assertSameLanguage A B maxLength = .error mismatch ↔
      ∃ w side, mismatch = .word w side ∧ A.findDifference B maxLength = .ok (some w) ∧
        (side.pick A B).accepts w = .ok true ∧ (side.other.pick A B).accepts w = .ok false := by
  obtain ⟨found, hfound, -⟩ := sameLanguage_of_start hp hq halphabet maxLength
  rw [assertSameLanguage_of_start hp hq halphabet hfound, hfound]
  simp only [← alone?_eq_some_iff hp hq, Except.ok.injEq]
  cases found with
  | none => simp
  | some w =>
      cases hside : Side.alone? (A.containsAccepting (A.after p w))
          (B.containsAccepting (B.after q w)) with
      | none => simp [hside]
      | some side => simp [hside, @eq_comm _ mismatch]

theorem findDifference_eq_none_iff_over :
    A.findDifference B maxLength = .ok none ↔
      ∀ w : List α, w.length ≤ maxLength → (∀ a ∈ w, a ∈ A.alphabet) →
        A.accepts w = B.accepts w := by
  rw [findDifference_of_start hp hq, Except.ok.injEq, words, List.find?_eq_none]
  simp only [mem_wordsUpTo, ← accepts_ne_iff hp hq, not_not, and_imp]

theorem WellFormed.findDifference_eq_some_iff_over (wfA : A.WellFormed) :
    A.findDifference B maxLength = .ok (some word) ↔
      word.length ≤ maxLength ∧ A.IsFirstDifferenceOver B word := by
  rw [findDifference_of_start hp hq, Except.ok.injEq, words,
    find?_eq_some_iff_least (pairwise_wordsUpTo wfA.alphabet_nodup maxLength)]
  simp only [mem_wordsUpTo, ← accepts_ne_iff hp hq]
  constructor
  · rintro ⟨⟨hlength, hover⟩, hne, hle⟩
    refine ⟨hlength, hover, hne, fun other hother hdiffer => ?_⟩
    by_cases hshort : other.length ≤ maxLength
    · exact hle other ⟨hshort, hother⟩ hdiffer
    · -- Words that are too long to be tried come after all that are tried.
      exact (place_lt_of_length_lt (by omega)).le
  · rintro ⟨hlength, hfirst⟩
    exact ⟨⟨hlength, hfirst.over_alphabet⟩, hfirst.accepts_ne,
      fun other hother => hfirst.le other hother.2⟩

variable (wfA : A.WellFormed) (wfB : B.WellFormed)
  (hsame : ∀ a, a ∈ A.alphabet ↔ a ∈ B.alphabet)

include wfA wfB hsame

theorem over_alphabet_of_accepts_ne (h : A.accepts word ≠ B.accepts word) :
    ∀ a ∈ word, a ∈ A.alphabet := by
  intro a ha
  by_contra hforeign
  apply h
  rw [wfA.accepts_foreign hp ha hforeign, wfB.accepts_foreign hq ha (mt (hsame a).2 hforeign)]

theorem isFirstDifferenceOver_iff :
    A.IsFirstDifferenceOver B word ↔ A.IsFirstDifference B word := by
  have hover : ∀ {w}, A.accepts w ≠ B.accepts w → ∀ a ∈ w, a ∈ A.alphabet := fun hne =>
    over_alphabet_of_accepts_ne hp hq wfA wfB hsame hne
  constructor
  · exact fun hfirst => ⟨hfirst.accepts_ne, fun other hne => hfirst.le other (hover hne) hne⟩
  · exact fun hfirst => ⟨hover hfirst.accepts_ne, hfirst.accepts_ne,
      fun other _ hne => hfirst.le other hne⟩

theorem findDifference_eq_some_iff :
    A.findDifference B maxLength = .ok (some word) ↔
      word.length ≤ maxLength ∧ A.IsFirstDifference B word := by
  rw [wfA.findDifference_eq_some_iff_over hp hq, isFirstDifferenceOver_iff hp hq wfA wfB hsame]

theorem findDifference_eq_none_iff :
    A.findDifference B maxLength = .ok none ↔
      ∀ w : List α, w.length ≤ maxLength → A.accepts w = B.accepts w := by
  rw [findDifference_eq_none_iff_over hp hq]
  constructor
  · intro h w hlength
    by_contra hne
    exact hne (h w hlength (over_alphabet_of_accepts_ne hp hq wfA wfB hsame hne))
  · exact fun h w hlength _ => h w hlength

end

/-! ## All comparisons -/

theorem findDifference_of_no_start (h : A.start = none ∨ B.start = none) :
    A.findDifference B maxLength = .error .noStartState := by
  rw [findDifference, initial, initial]
  cases hp : A.start with
  | none => rfl
  | some p =>
      rw [h.resolve_left (by simp [hp])]
      rfl

theorem sameLanguage_of_no_start (halphabet : A.sameAlphabet B)
    (h : A.start = none ∨ B.start = none) :
    A.sameLanguage B maxLength = .error .noStartState := by
  rw [sameLanguage, if_pos halphabet, findDifference_of_no_start h]
  rfl

theorem assertSameLanguage_of_no_start (halphabet : A.sameAlphabet B)
    (h : A.start = none ∨ B.start = none) :
    assertSameLanguage A B maxLength =
      .error (.noStartState (if A.start = none then .a else .b)) := by
  rw [assertSameLanguage, if_pos halphabet]
  cases hp : A.start with
  | none => rfl
  | some p =>
      rw [h.resolve_left (by simp [hp])]
      rfl

theorem WellFormed.sameLanguage_comm (wfA : A.WellFormed) (wfB : B.WellFormed) (maxLength : Nat) :
    A.sameLanguage B maxLength = B.sameLanguage A maxLength := by
  have hcomm : A.sameAlphabet B ↔ B.sameAlphabet A := by
    rw [wfA.sameAlphabet_iff wfB, wfB.sameAlphabet_iff wfA]
    exact forall_congr' fun a => iff_comm
  by_cases halphabet : A.sameAlphabet B
  · have hsame := (wfA.sameAlphabet_iff wfB).1 halphabet
    by_cases hstart : A.start = none ∨ B.start = none
    · rw [sameLanguage_of_no_start halphabet hstart,
        sameLanguage_of_no_start (hcomm.1 halphabet) hstart.symm]
    · obtain ⟨⟨p, hp⟩, ⟨q, hq⟩⟩ : (∃ p, A.start = some p) ∧ ∃ q, B.start = some q := by
        simpa [not_or, Option.ne_none_iff_exists'] using hstart
      obtain ⟨found, hfound, heq⟩ := sameLanguage_of_start hp hq halphabet maxLength
      obtain ⟨found', hfound', heq'⟩ :=
        sameLanguage_of_start hq hp (hcomm.1 halphabet) maxLength
      have hnone : found.isNone ↔
          ∀ w : List α, w.length ≤ maxLength → A.accepts w = B.accepts w := by
        rw [← findDifference_eq_none_iff hp hq wfA wfB hsame, hfound]
        simp
      have hnone' : found'.isNone ↔
          ∀ w : List α, w.length ≤ maxLength → B.accepts w = A.accepts w := by
        rw [← findDifference_eq_none_iff hq hp wfB wfA fun a => (hsame a).symm, hfound']
        simp
      rw [heq, heq', Except.ok.injEq, Bool.eq_iff_iff, hnone, hnone']
      simp only [eq_comm]
  · rw [sameLanguage, sameLanguage, if_neg halphabet, if_neg (mt hcomm.2 halphabet)]

/--
The comparisons agree with each other and with the languages.  They find the first difference if it
is short enough, and say what is wrong with automata that cannot be compared.
-/
theorem comparisons_agree (hA : A.Built) (hB : B.Built) (maxLength : Nat) :
    ((¬ ∀ a, a ∈ A.alphabet ↔ a ∈ B.alphabet) →
      A.sameLanguage B maxLength = .ok false ∧
        assertSameLanguage A B maxLength = .error .alphabets) ∧
    ((∀ a, a ∈ A.alphabet ↔ a ∈ B.alphabet) → A.start = none ∨ B.start = none →
      A.findDifference B maxLength = .error .noStartState ∧
        A.sameLanguage B maxLength = .error .noStartState ∧
        assertSameLanguage A B maxLength =
          .error (.noStartState (if A.start = none then .a else .b))) ∧
    ((∀ a, a ∈ A.alphabet ↔ a ∈ B.alphabet) → A.start ≠ none → B.start ≠ none →
      (∃ found, A.findDifference B maxLength = .ok found ∧
        A.sameLanguage B maxLength = .ok found.isNone) ∧
      (∀ w, A.findDifference B maxLength = .ok (some w) ↔
        w.length ≤ maxLength ∧ A.IsFirstDifference B w) ∧
      (A.findDifference B maxLength = .ok none ↔
        ∀ w : List α, w.length ≤ maxLength → A.accepts w = B.accepts w) ∧
      (assertSameLanguage A B maxLength = .ok () ↔ A.findDifference B maxLength = .ok none) ∧
      ∀ mismatch, assertSameLanguage A B maxLength = .error mismatch ↔
        ∃ w side, mismatch = .word w side ∧ A.findDifference B maxLength = .ok (some w) ∧
          (side.pick A B).accepts w = .ok true ∧
          (side.other.pick A B).accepts w = .ok false) ∧
    A.sameLanguage B maxLength = B.sameLanguage A maxLength := by
  have wfA := hA.wellFormed
  have wfB := hB.wellFormed
  have halphabet := wfA.sameAlphabet_iff wfB
  refine ⟨fun hdiffer => ?_, fun hsame hstart => ?_, fun hsame hp hq => ?_,
    wfA.sameLanguage_comm wfB maxLength⟩
  · rw [sameLanguage, assertSameLanguage, if_neg (mt halphabet.1 hdiffer),
      if_neg (mt halphabet.1 hdiffer)]
    exact ⟨rfl, rfl⟩
  · exact ⟨findDifference_of_no_start hstart,
      sameLanguage_of_no_start (halphabet.2 hsame) hstart,
      assertSameLanguage_of_no_start (halphabet.2 hsame) hstart⟩
  · obtain ⟨p, hp⟩ := Option.ne_none_iff_exists'.1 hp
    obtain ⟨q, hq⟩ := Option.ne_none_iff_exists'.1 hq
    exact ⟨sameLanguage_of_start hp hq (halphabet.2 hsame) maxLength,
      fun w => findDifference_eq_some_iff hp hq wfA wfB hsame,
      findDifference_eq_none_iff hp hq wfA wfB hsame,
      assertSameLanguage_eq_ok_iff hp hq (halphabet.2 hsame),
      fun mismatch => assertSameLanguage_eq_error_iff hp hq (halphabet.2 hsame)⟩

/-- All words that end in `a`. -/
def endingInA : Automaton Char where
  kind := .deterministic
  alphabet := ['b', 'a']
  start := some 0
  stateData := #[⟨false, none⟩, ⟨true, none⟩]
  recent := [⟨1, .symbol 'b', 0⟩, ⟨1, .symbol 'a', 1⟩, ⟨0, .symbol 'a', 1⟩, ⟨0, .symbol 'b', 0⟩]

theorem built_endingInA : endingInA.Built := by
  have hedits : (empty .deterministic ['b', 'a']).editAll [.addState ⟨false, none⟩,
      .addState ⟨true, none⟩, .setStart 0, .addTransition 0 (.symbol 'b') 0,
      .addTransition 0 (.symbol 'a') 1, .addTransition 1 (.symbol 'a') 1,
      .addTransition 1 (.symbol 'b') 0] = .ok endingInA := by
    rfl
  exact (Built.empty _ _).editAll hedits

theorem comparisons_of_epsilonCycle :
    epsilonCycle.Built ∧ endingInA.Built ∧ oneLoop.Built ∧
      (empty .deterministic ['b', 'a']).Built ∧
      epsilonCycle.IsFirstDifference endingInA ['b', 'a'] ∧
      assertSameLanguage epsilonCycle endingInA 2 = .error (.word ['b', 'a'] .b) ∧
      epsilonCycle.sameLanguage endingInA 2 = endingInA.sameLanguage epsilonCycle 2 ∧
      assertSameLanguage epsilonCycle oneLoop 2 = .error .alphabets ∧
      assertSameLanguage epsilonCycle (empty .deterministic ['b', 'a']) 2 =
        .error (.noStartState .b) := by
  have hsame : ∀ a, a ∈ epsilonCycle.alphabet ↔ a ∈ endingInA.alphabet := by
    simp [epsilonCycle, endingInA, or_comm]
  have hother : ¬ ∀ a, a ∈ epsilonCycle.alphabet ↔ a ∈ oneLoop.alphabet := by
    simp [epsilonCycle, oneLoop]
  have hsame' : ∀ a, a ∈ epsilonCycle.alphabet ↔
      a ∈ (empty Kind.deterministic ['b', 'a']).alphabet := hsame
  have hfound : epsilonCycle.findDifference endingInA 2 = .ok (some ['b', 'a']) := by decide
  obtain ⟨-, -, hcompared, hcomm⟩ := comparisons_agree built_epsilonCycle built_endingInA 2
  obtain ⟨-, hfirst, -, -, hmismatch⟩ := hcompared hsame (by decide) (by decide)
  obtain ⟨hdiffer, -⟩ := comparisons_agree built_epsilonCycle built_oneLoop 2
  obtain ⟨-, hmissing, -⟩ :=
    comparisons_agree built_epsilonCycle (Built.empty .deterministic ['b', 'a']) 2
  refine ⟨built_epsilonCycle, built_endingInA, built_oneLoop, .empty _ _, ?_, ?_, hcomm, ?_, ?_⟩
  · exact ((hfirst _).1 hfound).2
  · exact (hmismatch _).2 ⟨_, .b, rfl, hfound, by decide, by decide⟩
  · exact (hdiffer hother).2
  · exact (hmissing hsame' (.inr rfl)).2.2

end Automaton

end Acceptors
