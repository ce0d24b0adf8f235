import Acceptors.Proofs.WellFormed
import Mathlib.Data.Finset.Card
import Mathlib.Data.List.ProdSigma

/-!
# Tables with one target for each state and symbol

The transitions of an automaton fill a table with a row for each state and a column for each label.
In a deterministic automaton no cell holds two targets, and in a complete one no cell of a symbol is
empty.  An automaton that is both has as many transitions as it has cells.
-/

namespace Acceptors

/-- The row and the column of a transition. -/
def Transition.cell {α : Type} (t : Transition α) : State × Label α := (t.source, t.label)

namespace Automaton

variable {α : Type} {A : Automaton α}

theorem mem_cells {p : State} {label : Label α} :
    (p, label) ∈ A.recent.map Transition.cell ↔ ∃ q, ⟨p, label, q⟩ ∈ A.recent := by
  rw [List.mem_map]
  constructor
  · rintro ⟨⟨p, label, q⟩, ht, hcell⟩
    cases hcell
    exact ⟨q, ht⟩
  · rintro ⟨q, ht⟩
    exact ⟨_, ht, rfl⟩

theorem nodup_cells_iff (hnodup : A.recent.Nodup) :
    (A.recent.map Transition.cell).Nodup ↔
      ∀ p label q r, ⟨p, label, q⟩ ∈ A.recent → ⟨p, label, r⟩ ∈ A.recent → q = r := by
  rw [List.nodup_map_iff_inj_on hnodup]
  constructor
  · intro hinj p label q r hq hr
    exact congrArg Transition.target (hinj _ hq _ hr rfl)
  · rintro hone ⟨p, label, q⟩ hq ⟨p', label', r⟩ hr hcell
    cases hcell
    rw [hone p label q r hq hr]

theorem mem_labelsFrom {p : State} {label : Label α} :
    label ∈ A.labelsFrom p ↔ ∃ q, ⟨p, label, q⟩ ∈ A.recent := by
  simp only [labelsFrom, List.mem_filterMap, Option.ite_none_right_eq_some, Option.some.injEq]
  constructor
  · rintro ⟨⟨p, label, q⟩, ht, rfl, rfl⟩
    exact ⟨q, ht⟩
  · rintro ⟨q, ht⟩
    exact ⟨_, ht, rfl, rfl⟩

theorem nodup_labelsFrom_iff {p : State} :
    (A.labelsFrom p).Nodup ↔
      A.recent.Pairwise fun t u => t.source = p → u.source = p → t.label ≠ u.label := by
  simp only [labelsFrom, List.Nodup, List.pairwise_filterMap, Option.ite_none_right_eq_some,
    Option.some.injEq]
  constructor
  · exact fun h => h.imp fun hne ht hu => hne _ ⟨ht, rfl⟩ _ ⟨hu, rfl⟩
  · refine fun h => h.imp fun hne => ?_
    rintro _ ⟨ht, rfl⟩ _ ⟨hu, rfl⟩
    exact hne ht hu

theorem WellFormed.isEpsilonFree_iff_labelsFrom (wf : A.WellFormed) :
    A.IsEpsilonFree ↔ ∀ p ∈ A.states, Label.epsilon ∉ A.labelsFrom p := by
  simp only [isEpsilonFree_iff, mem_labelsFrom]
  constructor
  · rintro hnone p - ⟨q, ht⟩
    exact hnone p q ht
  · exact fun hnone p q ht => hnone p (mem_states.2 (wf.source_lt _ ht)) ⟨q, ht⟩

theorem WellFormed.nodup_cells_iff_labelsFrom (wf : A.WellFormed) :
    (A.recent.map Transition.cell).Nodup ↔ ∀ p ∈ A.states, (A.labelsFrom p).Nodup := by
  simp only [nodup_labelsFrom_iff]
  rw [List.Nodup, List.pairwise_map]
  constructor
  · exact fun h p _ => h.imp fun hne ht hu hlabel => hne (Prod.ext (ht.trans hu.symm) hlabel)
  · intro h
    refine List.pairwise_iff_getElem.2 fun i j hi hj hij hcell => ?_
    obtain ⟨hsource, hlabel⟩ := Prod.mk.inj hcell
    have hrow := h _ (mem_states.2 (wf.source_lt _ (List.getElem_mem hi)))
    exact List.pairwise_iff_getElem.1 hrow i j hi hj hij rfl hsource.symm hlabel

theorem WellFormed.isDeterministic_iff_cells (wf : A.WellFormed) :
    A.IsDeterministic ↔ A.IsEpsilonFree ∧ (A.recent.map Transition.cell).Nodup := by
  rw [wf.isEpsilonFree_iff_labelsFrom, wf.nodup_cells_iff_labelsFrom, IsDeterministic]
  exact forall₂_and

theorem WellFormed.isDeterministic_iff_targets (wf : A.WellFormed) :
    A.IsDeterministic ↔ A.IsEpsilonFree ∧
      ∀ p label q r, ⟨p, label, q⟩ ∈ A.recent → ⟨p, label, r⟩ ∈ A.recent → q = r := by
  rw [wf.isDeterministic_iff_cells, nodup_cells_iff wf.recent_nodup]

variable [DecidableEq α]

/-! ## Targets of one cell -/

theorem WellFormed.nodup_targets (wf : A.WellFormed) (p : State) (label : Label α) :
    (A.targets p label).Nodup := by
  refine List.Nodup.filterMap ?_ wf.recent_nodup
  rintro ⟨p₁, l₁, r₁⟩ ⟨p₂, l₂, r₂⟩ q h₁ h₂
  simp only [Option.mem_def, Option.ite_none_right_eq_some, Option.some.injEq] at h₁ h₂
  obtain ⟨⟨rfl, rfl⟩, rfl⟩ := h₁
  obtain ⟨⟨rfl, rfl⟩, rfl⟩ := h₂
  rfl

theorem WellFormed.length_targets_le_one_iff (wf : A.WellFormed) {p : State} {label : Label α} :
    (A.targets p label).length ≤ 1 ↔
      ∀ q r, ⟨p, label, q⟩ ∈ A.recent → ⟨p, label, r⟩ ∈ A.recent → q = r := by
  rw [← List.toFinset_card_of_nodup (wf.nodup_targets p label), Finset.card_le_one]
  simp only [List.mem_toFinset, mem_targets]
  constructor
  · intro hone q r hq hr
    exact hone q hq r hr
  · intro hone q hq r hr
    exact hone q r hq hr

/-- The check looks for a label that occurs twice, and a label does so only with two targets. -/
theorem WellFormed.isDeterministic_iff_length_targets (wf : A.WellFormed) :
    A.IsDeterministic ↔
      A.IsEpsilonFree ∧ ∀ p ∈ A.states, ∀ a, (A.targets p (.symbol a)).length ≤ 1 := by
  rw [wf.isDeterministic_iff_targets]
  simp only [wf.length_targets_le_one_iff]
  constructor
  · rintro ⟨free, hone⟩
    exact ⟨free, fun p _ a => hone p (.symbol a)⟩
  · rintro ⟨free, hone⟩
    refine ⟨free, fun p label q r hq hr => ?_⟩
    cases label with
    | symbol a => exact hone p (mem_states.2 (wf.source_lt _ hq)) a q r hq hr
    | epsilon => exact absurd hq (isEpsilonFree_iff.1 free p q)

/-! ## Complete tables -/

theorem isComplete_iff :
    A.IsComplete ↔ ∀ p < A.stateCount, ∀ a ∈ A.alphabet, ∃ q, ⟨p, .symbol a, q⟩ ∈ A.recent := by
  rw [IsComplete, List.eq_nil_iff_forall_not_mem]
  constructor
  · intro hnone p hp a ha
    by_contra hempty
    exact hnone (p, a) (mem_gaps.2 ⟨hp, ha, fun q ht => hempty ⟨q, ht⟩⟩)
  · rintro hall ⟨p, a⟩ hgap
    obtain ⟨hp, ha, hempty⟩ := mem_gaps.1 hgap
    obtain ⟨q, ht⟩ := hall p hp a ha
    exact hempty q ht

theorem WellFormed.mem_cells_of_complete (wf : A.WellFormed) (free : A.IsEpsilonFree)
    (complete : A.IsComplete) {p : State} {label : Label α} :
    (p, label) ∈ A.recent.map Transition.cell ↔
      (p, label) ∈ A.states ×ˢ A.alphabet.map Label.symbol := by
  rw [mem_cells, List.mem_product, mem_states, List.mem_map]
  constructor
  · rintro ⟨q, ht⟩
    refine ⟨wf.source_lt _ ht, ?_⟩
    cases label with
    | symbol a => exact ⟨a, wf.label_permitted _ ht, rfl⟩
    | epsilon => exact absurd ht (isEpsilonFree_iff.1 free p q)
  · rintro ⟨hp, a, ha, rfl⟩
    exact isComplete_iff.1 complete p hp a ha

theorem WellFormed.transitionCount_eq (wf : A.WellFormed) (deterministic : A.IsDeterministic)
    (complete : A.IsComplete) : A.transitionCount = A.stateCount * A.alphabet.length := by
  obtain ⟨free, hcells⟩ := wf.isDeterministic_iff_cells.1 deterministic
  have hsymbols : (A.alphabet.map Label.symbol).Nodup :=
    wf.alphabet_nodup.map fun a b => Label.symbol.inj
  have hperm : (A.recent.map Transition.cell).Perm (A.states ×ˢ A.alphabet.map Label.symbol) := by
    refine (List.perm_ext_iff_of_nodup hcells (List.nodup_range.product hsymbols)).2 ?_
    rintro ⟨p, label⟩
    exact wf.mem_cells_of_complete free complete
  have hlength := hperm.length_eq
  rwa [List.length_map, List.length_product, List.length_map, states, List.length_range] at hlength

end Automaton

end Acceptors
