import Acceptors.StateSet
import Mathlib.Algebra.Group.Nat.Defs
import Mathlib.Data.List.ProdSigma
import Mathlib.Data.List.Sort
import Mathlib.Data.List.Sublists

/-!
# Sets of states as sets

An ascending list is determined by its members, so sets with the same members are equal.  There are
at most `2 ^ n` different sets of states below `n`.
-/

namespace Acceptors

theorem length_le_of_nodup_of_lt {states : List State} {n : Nat} (hnodup : states.Nodup)
    (hlt : ∀ q ∈ states, q < n) : states.length ≤ n := by
  have hsubset : states ⊆ List.range n := fun q hq => List.mem_range.2 (hlt q hq)
  simpa using (List.subperm_of_subset hnodup hsubset).length_le

namespace StateSet

theorem ext {s t : StateSet} (h : ∀ q, q ∈ s ↔ q ∈ t) : s = t := by
  cases s with
  | mk states hs =>
      cases t with
      | mk states' ht =>
          have heq : states = states' := hs.eq_of_mem_iff ht (fun q => h q)
          subst heq
          rfl

@[simp] theorem isEmpty_iff {s : StateSet} : s.isEmpty ↔ s = ∅ := by
  constructor
  · intro h
    refine ext fun q => ?_
    rw [← mem_toList, List.isEmpty_iff.1 h]
    simp
  · rintro rfl
    rfl

theorem eq_empty_iff {s : StateSet} : s = ∅ ↔ ∀ q, q ∉ s := by
  constructor
  · rintro rfl q
    exact not_mem_empty q
  · intro h
    exact ext fun q => ⟨fun hq => absurd hq (h q), fun hq => absurd hq (not_mem_empty q)⟩

theorem nonempty_of_mem {s : StateSet} {q : State} (h : q ∈ s) : s ≠ ∅ :=
  fun hs => eq_empty_iff.1 hs q h

theorem exists_mem_of_ne_empty {s : StateSet} (h : s ≠ ∅) : ∃ q, q ∈ s := by
  simpa [eq_empty_iff] using h

theorem toList_sublist_range {s : StateSet} {n : Nat} (h : ∀ q ∈ s, q < n) :
    s.toList.Sublist (List.range n) := by
  have hnodup : s.toList.Nodup := s.ascending.imp Nat.ne_of_lt
  have hsubset : s.toList ⊆ List.range n := fun q hq => List.mem_range.2 (h q hq)
  exact List.sublist_of_subperm_of_pairwise (List.subperm_of_subset hnodup hsubset)
    (s.ascending.imp Nat.le_of_lt) (List.pairwise_lt_range.imp Nat.le_of_lt)

theorem toList_injective : Function.Injective toList := by
  rintro ⟨states, _⟩ ⟨states', _⟩ h
  cases h
  rfl

theorem singleton_injective : Function.Injective singleton := fun _ _ h =>
  List.singleton_inj.1 (congrArg toList h)

@[simp] theorem size_empty : (∅ : StateSet).size = 0 := rfl

@[simp] theorem size_singleton (q : State) : (singleton q).size = 1 := rfl

theorem length_le_two_pow {sets : List StateSet} {n : Nat} (hnodup : sets.Nodup)
    (hlt : ∀ s ∈ sets, ∀ q ∈ s, q < n) : sets.length ≤ Nat.pow 2 n := by
  have hsubset : sets.map toList ⊆ (List.range n).sublists := by
    intro states hstates
    obtain ⟨s, hs, rfl⟩ := List.mem_map.1 hstates
    exact List.mem_sublists.2 (toList_sublist_range (hlt s hs))
  have hle := (List.subperm_of_subset (hnodup.map toList_injective) hsubset).length_le
  simpa using hle

theorem length_pairs_le_two_pow {pairs : List (StateSet × StateSet)} {m n : Nat}
    (hnodup : pairs.Nodup) (hlt : ∀ p ∈ pairs, (∀ q ∈ p.1, q < m) ∧ ∀ q ∈ p.2, q < n) :
    pairs.length ≤ 2 ^ (m + n) := by
  have hinjective := Function.Injective.prodMap toList_injective toList_injective
  have hsubset : pairs.map (Prod.map toList toList) ⊆
      (List.range m).sublists ×ˢ (List.range n).sublists := by
    intro states hstates
    obtain ⟨⟨s, t⟩, hp, rfl⟩ := List.mem_map.1 hstates
    obtain ⟨hs, ht⟩ := hlt _ hp
    exact List.mem_product.2 ⟨List.mem_sublists.2 (toList_sublist_range hs),
      List.mem_sublists.2 (toList_sublist_range ht)⟩
  have hle := (List.subperm_of_subset (hnodup.map hinjective) hsubset).length_le
  simpa [List.length_product, Nat.pow_add] using hle

end StateSet

end Acceptors
