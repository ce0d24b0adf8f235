import Acceptors.Proofs.DerivedStates
import Acceptors.Proofs.SearchOrder

/-!
# Numbers of derived states

The derived states are numbered in the order of the first words that lead to their labels, where a
shorter word comes before a longer one, and words of one length come in the order of the alphabet.
-/

namespace Acceptors

theorem lt_iff_of_pairwise {β κ : Type} [Preorder κ] {items : List β} {key : β → κ}
    (h : items.Pairwise fun b c => key b < key c) {m n : Nat} {b c : β}
    (hb : items[m]? = some b) (hc : items[n]? = some c) : m < n ↔ key b < key c := by
  obtain ⟨hm, rfl⟩ := List.getElem?_eq_some_iff.1 hb
  obtain ⟨hn, rfl⟩ := List.getElem?_eq_some_iff.1 hc
  have hlt := List.pairwise_iff_getElem.1 h
  constructor
  · exact hlt m n hm hn
  · intro hkey
    rcases Nat.lt_trichotomy m n with hmn | rfl | hnm
    · exact hmn
    · exact absurd hkey (lt_irrefl _)
    · exact absurd hkey (hlt n m hn hm hnm).asymm

namespace Automaton

variable {α : Type} [DecidableEq α] {A : Automaton α} {start : State}

/-- The set is active after the word, and after no word that comes before it. -/
structure IsFirstWord (A : Automaton α) (S : StateSet) (word : List α) : Prop where
  run_eq : A.run word = .ok S
  le : ∀ other, A.run other = .ok S → place A.alphabet word ≤ place A.alphabet other

theorem WellFormed.isFirstWord_unique (wf : A.WellFormed) (hstart : A.start = some start)
    {S : StateSet} {v w : List α} (hne : S ≠ ∅) (hv : A.IsFirstWord S v)
    (hw : A.IsFirstWord S w) : v = w := by
  have hplace := (hv.le w hw.run_eq).antisymm (hw.le v hv.run_eq)
  have hafter := (run_eq_ok_iff hstart).1 hv.run_eq
  exact place_injOn (wf.word_over_alphabet (hafter ▸ hne)) hplace

theorem successors_eq_nextUnder :
    A.successors A.moves = Search.nextUnder A.alphabet A.advance (!·.isEmpty) := rfl

theorem WellFormed.exists_first_words (wf : A.WellFormed) (hstart : A.start = some start) :
    ∃ name : StateSet → List α,
      (A.reachedSets start).Pairwise
        (fun S T => place A.alphabet (name S) < place A.alphabet (name T)) ∧
      ∀ S ∈ A.reachedSets start, A.IsFirstWord S (name S) := by
  have hlt := wf.start_lt start hstart
  have hbounded := wf.reached_bounded start
  have hkeep : ∀ (S : StateSet) (a : α), !(A.advance S a).isEmpty → !S.isEmpty := by
    intro S a hnext
    simp only [Bool.not_eq_true', ← Bool.not_eq_true, StateSet.isEmpty_iff] at hnext ⊢
    exact ne_empty_of_advance hnext
  rw [reachedSets_eq_reach]
  rw [successors_eq_nextUnder] at hbounded ⊢
  obtain ⟨name, hascending, hleads, hfirst⟩ :=
    Search.exists_first_words wf.alphabet_nodup hbounded hkeep
  refine ⟨name, hascending, fun S hS => ⟨?_, fun other hother => ?_⟩⟩
  · exact (run_eq_ok_iff hstart).2 (hleads S hS)
  · have hafter := (run_eq_ok_iff hstart).1 hother
    rw [← successors_eq_nextUnder, ← reachedSets_eq_reach] at hS
    have hne : S ≠ ∅ := ((wf.mem_reachedSets_iff_leadsTo hlt).1 hS).1
    have hover : ∀ a ∈ other, a ∈ A.alphabet := wf.word_over_alphabet (hafter ▸ hne)
    have hle := hfirst other hover
    rw [← after, hafter] at hle
    exact hle (by simpa [← Bool.not_eq_true] using hne)

/--
Derived states are numbered in shortlex order of the first words that lead to their labels.  The
sink, which is added when all others have their numbers, is left out.
-/
theorem determinize_numbers_in_shortlex_order (built : A.Built) (hstart : A.start = some start)
    (complete : Bool) (naming : Naming) :
    ∃ d, A.determinize complete naming = .ok d ∧ d.automaton.start = some 0 ∧
      ∃ access : State → List α,
        (∀ s < d.automaton.stateCount, d.sink? ≠ some s →
          ∃ S, d.label? s = some S ∧ ∀ w, A.IsFirstWord S w ↔ w = access s) ∧
        ∀ s < d.automaton.stateCount, ∀ t < d.automaton.stateCount,
          d.sink? ≠ some s → d.sink? ≠ some t →
            (s < t ↔ place A.alphabet (access s) < place A.alphabet (access t)) := by
  have wf := built.wellFormed
  have hlt := wf.start_lt start hstart
  obtain ⟨d, hd⟩ := exists_determinize hstart complete naming
  have follows := wf.follows_determinize hstart hd
  obtain ⟨name, hascending, hfirst⟩ := wf.exists_first_words hstart
  refine ⟨d, hd, follows.start_eq, fun s => name ((d.label? s).getD ∅), ?_, ?_⟩
  · intro s hs hsink
    obtain ⟨S, hlabel⟩ := follows.exists_label hs
    have hreached := (wf.getElem?_reachedSets hstart hd).2 ⟨hlabel, hsink⟩
    have hmem := List.mem_of_getElem? hreached
    have hne : S ≠ ∅ := ((wf.mem_reachedSets_iff_leadsTo hlt).1 hmem).1
    refine ⟨S, hlabel, fun w => ?_⟩
    simp only [hlabel, Option.getD_some]
    constructor
    · exact fun hw => wf.isFirstWord_unique hstart hne hw (hfirst S hmem)
    · rintro rfl
      exact hfirst S hmem
  · intro s hs t ht hsink hsink'
    obtain ⟨S, hlabel⟩ := follows.exists_label hs
    obtain ⟨T, hlabel'⟩ := follows.exists_label ht
    have hreached := (wf.getElem?_reachedSets hstart hd).2 ⟨hlabel, hsink⟩
    have hreached' := (wf.getElem?_reachedSets hstart hd).2 ⟨hlabel', hsink'⟩
    simp only [hlabel, hlabel', Option.getD_some]
    exact lt_iff_of_pairwise hascending hreached hreached'

theorem numbers_epsilonCycle :
    epsilonCycle.Built ∧ epsilonCycle.start = some 0 ∧
      ∃ d, epsilonCycle.determinize true .numbered = .ok d ∧ ∃ v w,
        epsilonCycle.IsFirstWord (.ofList [0, 1]) v ∧
        epsilonCycle.IsFirstWord (.ofList [0, 1, 2]) w ∧ place ['a', 'b'] v < place ['a', 'b'] w := by
  refine ⟨built_epsilonCycle, rfl, ?_⟩
  obtain ⟨d, hd, -, access, hfirst, horder⟩ :=
    determinize_numbers_in_shortlex_order built_epsilonCycle rfl true .numbered
  have hshape : (epsilonCycle.determinize true .numbered).map
      (fun d => (d.automaton.stateCount, d.sink?, d.labels)) =
        .ok (3, some 2, [.ofList [0, 1], .ofList [0, 1, 2], ∅]) := by decide
  rw [hd] at hshape
  obtain ⟨hcount, hsink, hlabels⟩ : d.automaton.stateCount = 3 ∧ d.sink? = some 2 ∧
      d.labels = [.ofList [0, 1], .ofList [0, 1, 2], ∅] := by
    simpa [Except.map] using hshape
  obtain ⟨S, hS, hv⟩ := hfirst 0 (by omega) (by simp [hsink])
  obtain ⟨T, hT, hw⟩ := hfirst 1 (by omega) (by simp [hsink])
  rw [Determinized.label?, hlabels] at hS hT
  cases hS
  cases hT
  refine ⟨d, hd, access 0, access 1, (hv _).2 rfl, (hw _).2 rfl, ?_⟩
  exact (horder 0 (by omega) 1 (by omega) (by simp [hsink]) (by simp [hsink])).1 Nat.zero_lt_one

end Automaton

end Acceptors
