import Acceptors.StateSet.Vector
import Acceptors.Proofs.StateSet
import Mathlib.Data.Finset.Card

/-!
# Vectors as finite sets

The operations on vectors find states by halving and unite sets by merging, which goes well only if
the vectors ascend.  Each operation is shown to keep that order and to do to the members what the
operation of finite sets does.  By induction every history of calls then leaves vectors that stand
for the sets of the same history, and equal sets have equal vectors.
-/

namespace Acceptors

/-! ## Repeats among neighbours -/

theorem eraseRepsBy_loop {β : Type} (r : β → β → Bool) (b : β) (items found : List β) :
    List.eraseRepsBy.loop r b items found = found.reverse ++ List.eraseRepsBy.loop r b items [] := by
  induction items generalizing b found with
  | nil => simp [List.eraseRepsBy.loop]
  | cons c items ih =>
      simp only [List.eraseRepsBy.loop]
      split
      · exact ih b found
      · rw [ih c (b :: found), ih c [b]]
        simp

theorem eraseReps_cons_cons (p q : State) (states : List State) :
    (p :: q :: states).eraseReps =
      if p = q then (p :: states).eraseReps else p :: (q :: states).eraseReps := by
  simp only [List.eraseReps, List.eraseRepsBy, List.eraseRepsBy.loop]
  split
  · next h => rw [if_pos (by simpa using h)]
  · next h =>
      rw [if_neg (by simpa using h), eraseRepsBy_loop]
      rfl

theorem mem_eraseReps {p : State} (states : List State) : p ∈ states.eraseReps ↔ p ∈ states := by
  cases states with
  | nil => rfl
  | cons q states =>
      induction states generalizing q with
      | nil => rfl
      | cons r states ih =>
          rw [eraseReps_cons_cons]
          split
          · next h => simp [ih, h]
          · simp [ih]

/-- In an ascending list equal states are neighbours. -/
theorem pairwise_eraseReps {states : List State} (h : states.Pairwise (· ≤ ·)) :
    states.eraseReps.Pairwise (· < ·) := by
  cases states with
  | nil => exact .nil
  | cons q states =>
      induction states generalizing q with
      | nil => simp [List.eraseReps, List.eraseRepsBy, List.eraseRepsBy.loop]
      | cons r states ih =>
          obtain ⟨hq, hrest⟩ := List.pairwise_cons.1 h
          rw [eraseReps_cons_cons]
          split
          · next heq => exact ih q (heq ▸ hrest)
          · next hne =>
              refine List.pairwise_cons.2 ⟨fun p hp => ?_, ih r hrest⟩
              have hqr : q < r := Nat.lt_of_le_of_ne (hq r List.mem_cons_self) hne
              rcases List.mem_cons.1 ((mem_eraseReps _).1 hp) with rfl | hp
              · exact hqr
              · exact Nat.lt_of_lt_of_le hqr ((List.pairwise_cons.1 hrest).1 p hp)

namespace StateVector

def IsAscending (v : StateVector) : Prop := v.states.toList.Pairwise (· < ·)

theorem isAscending_iff {v : StateVector} :
    v.IsAscending ↔
      ∀ (i j : Nat) (hi : i < v.states.size) (hj : j < v.states.size), i < j →
        v.states[i] < v.states[j] := by
  unfold IsAscending
  rw [List.pairwise_iff_getElem]
  simp

/-- The states below a position are smaller than `q`, those from another one on are greater. -/
structure Brackets (v : StateVector) (q : State) (low high : Nat) : Prop where
  below : ∀ i (h : i < v.states.size), i < low → v.states[i] < q
  above : ∀ i (h : i < v.states.size), high ≤ i → q < v.states[i]

/-- The place is that of `q`: there it stands, or there it would have to be put in. -/
inductive IsPlaceOf (v : StateVector) (q : State) : Place v.states.size → Prop where
  | found (i : Fin v.states.size) (h : v.states[i] = q) : v.IsPlaceOf q (.found i)
  | missing (i : Fin (v.states.size + 1)) (h : v.Brackets q i i) : v.IsPlaceOf q (.missing i)

theorem isPlaceOf_searchFrom {v : StateVector} {q : State} (ascending : v.IsAscending)
    {low high : Nat} {h : low ≤ high} {hhigh : high ≤ v.states.size}
    (brackets : v.Brackets q low high) : v.IsPlaceOf q (v.searchFrom q low high h hhigh) := by
  rw [isAscending_iff] at ascending
  fun_induction searchFrom v q low high h hhigh with
  | case1 low high h hhigh hlow middle hmiddle heq => exact .found _ heq
  | case2 low high h hhigh hlow middle hmiddle hne hlt ih =>
      apply ih
      -- Whatever stands up to the middle is at most the state there, which is less than `q`.
      refine ⟨fun i hi hi' => ?_, brackets.above⟩
      rcases Nat.lt_or_eq_of_le (Nat.le_of_lt_succ hi') with hi' | rfl
      · exact Nat.lt_trans (ascending i middle hi (by omega) hi') hlt
      · exact hlt
  | case3 low high h hhigh hlow middle hmiddle hne hlt ih =>
      apply ih
      refine ⟨brackets.below, fun i hi hi' => ?_⟩
      have hgt : q < v.states[middle] := Nat.lt_of_le_of_ne (Nat.le_of_not_lt hlt) (Ne.symm hne)
      rcases Nat.lt_or_eq_of_le hi' with hi' | rfl
      · exact Nat.lt_trans hgt (ascending middle i (by omega) hi hi')
      · exact hgt
  | case4 low high h hhigh hlow =>
      obtain rfl : high = low := by omega
      exact .missing _ brackets

theorem isPlaceOf_search {v : StateVector} (ascending : v.IsAscending) (q : State) :
    v.IsPlaceOf q (v.search q) := by
  refine isPlaceOf_searchFrom ascending ⟨fun i _ hi => ?_, fun i h hi => ?_⟩
  · exact absurd hi (Nat.not_lt_zero i)
  · exact absurd h (Nat.not_lt_of_le hi)

theorem Brackets.not_mem {v : StateVector} {q : State} {i : Nat} (brackets : v.Brackets q i i) :
    q ∉ v.states := by
  intro hq
  obtain ⟨j, hj, rfl⟩ := Array.mem_iff_getElem.1 hq
  rcases Nat.lt_or_ge j i with hlt | hge
  · exact Nat.lt_irrefl _ (brackets.below j hj hlt)
  · exact Nat.lt_irrefl _ (brackets.above j hj hge)

theorem contains_eq {v : StateVector} (ascending : v.IsAscending) (q : State) :
    v.contains q = decide (q ∈ v.states) := by
  have hplace := isPlaceOf_search ascending q
  unfold contains
  generalize v.search q = place at hplace ⊢
  cases hplace with
  | found i h =>
      have hmem : q ∈ v.states := h ▸ Array.getElem_mem i.isLt
      simp [hmem]
  | missing i brackets => simp [brackets.not_mem]

theorem Brackets.isAscending_insertIdx {v : StateVector} {q : State} {i : Nat}
    (brackets : v.Brackets q i i) (ascending : v.IsAscending) (hi : i ≤ v.states.size) :
    IsAscending ⟨v.states.insertIdx i q hi⟩ := by
  rw [isAscending_iff] at ascending ⊢
  intro j k hj hk hjk
  simp only [Array.size_insertIdx] at hj hk
  simp only [Array.getElem_insertIdx]
  have hbelow := brackets.below
  have habove := brackets.above
  grind

theorem insert_spec {v : StateVector} (ascending : v.IsAscending) (q : State) :
    (v.insert q).1 = decide (q ∉ v.states) ∧ (v.insert q).2.IsAscending ∧
      ∀ p, p ∈ (v.insert q).2.states ↔ p = q ∨ p ∈ v.states := by
  have hplace := isPlaceOf_search ascending q
  unfold insert
  generalize v.search q = place at hplace ⊢
  cases hplace with
  | found i h =>
      have hmem : q ∈ v.states := h ▸ Array.getElem_mem i.isLt
      refine ⟨by simp [hmem], ascending, fun p => ?_⟩
      exact ⟨.inr, fun hp => hp.elim (fun hpq => hpq ▸ hmem) id⟩
  | missing i brackets =>
      refine ⟨by simp [brackets.not_mem], brackets.isAscending_insertIdx ascending _, fun p => ?_⟩
      rw [Array.mem_insertIdx]

theorem ofStates_spec (states : List State) :
    (ofStates states).IsAscending ∧ ∀ p, p ∈ (ofStates states).states ↔ p ∈ states := by
  constructor
  · exact pairwise_eraseReps (List.pairwise_mergeSort' _ _)
  · intro p
    simp [ofStates, mem_eraseReps]

theorem union_spec {v w : StateVector} (hv : v.IsAscending) (hw : w.IsAscending) :
    (v.union w).IsAscending ∧ ∀ p, p ∈ (v.union w).states ↔ p ∈ v.states ∨ p ∈ w.states := by
  constructor
  · exact pairwise_eraseReps ((hv.imp Nat.le_of_lt).merge (hw.imp Nat.le_of_lt))
  · intro p
    rw [union, List.mem_toArray, mem_eraseReps, List.mem_merge, Array.mem_toList_iff,
      Array.mem_toList_iff]

/-! ## Vectors of finite sets -/

/-- The vector holds the members of the set, in ascending order. -/
structure Represents (v : StateVector) (S : Finset State) : Prop where
  ascending : v.IsAscending
  mem_iff : ∀ q, q ∈ v.states ↔ q ∈ S

def finsetOperations : SetOperations (Finset State) where
  empty := ∅
  singleton q := {q}
  ofStates := List.toFinset
  union S T := S ∪ T
  insert S q := Insert.insert q S

section Represented

variable {v w : StateVector} {S T : Finset State}

theorem represents_empty : empty.Represents ∅ :=
  ⟨.nil, fun q => by simp [empty]⟩

theorem represents_singleton (q : State) : (singleton q).Represents {q} :=
  ⟨List.pairwise_singleton _ _, fun p => by simp [singleton]⟩

theorem represents_ofStates (states : List State) :
    (ofStates states).Represents states.toFinset := by
  obtain ⟨ascending, hmem⟩ := ofStates_spec states
  exact ⟨ascending, fun q => by rw [hmem, List.mem_toFinset]⟩

theorem Represents.union (hv : v.Represents S) (hw : w.Represents T) :
    (v.union w).Represents (S ∪ T) := by
  obtain ⟨ascending, hmem⟩ := union_spec hv.ascending hw.ascending
  exact ⟨ascending, fun q => by rw [hmem, hv.mem_iff, hw.mem_iff, Finset.mem_union]⟩

theorem Represents.insert (hv : v.Represents S) (q : State) :
    (v.insert q).2.Represents (Insert.insert q S) := by
  obtain ⟨-, ascending, hmem⟩ := insert_spec hv.ascending q
  exact ⟨ascending, fun p => by rw [hmem, hv.mem_iff, Finset.mem_insert]⟩

theorem Represents.fresh (hv : v.Represents S) (q : State) :
    (v.insert q).1 = decide (q ∉ S) := by
  rw [(insert_spec hv.ascending q).1]
  simp [hv.mem_iff]

theorem Represents.contains (hv : v.Represents S) (q : State) :
    v.contains q = decide (q ∈ S) := by
  rw [contains_eq hv.ascending]
  simp [hv.mem_iff]

theorem Represents.toList_toFinset (hv : v.Represents S) : v.states.toList.toFinset = S := by
  ext q
  rw [List.mem_toFinset, Array.mem_toList_iff, hv.mem_iff]

theorem Represents.size (hv : v.Represents S) : v.size = S.card := by
  have hnodup : v.states.toList.Nodup := hv.ascending.imp Nat.ne_of_lt
  rw [← hv.toList_toFinset, List.toFinset_card_of_nodup hnodup]
  rfl

theorem Represents.isEmpty (hv : v.Represents S) : v.isEmpty = decide (S = ∅) := by
  rw [Bool.eq_iff_iff, decide_eq_true_eq, ← Finset.card_eq_zero, ← hv.size]
  simp [StateVector.isEmpty, StateVector.size]

theorem Represents.isSubset (hv : v.Represents S) (hw : w.Represents T) :
    v.isSubset w = decide (S ⊆ T) := by
  have hall : v.isSubset w = true ↔ ∀ q ∈ v.states, w.contains q = true := Array.all_eq_true'
  rw [Bool.eq_iff_iff, hall, decide_eq_true_eq, Finset.subset_iff]
  simp only [hw.contains, decide_eq_true_eq, hv.mem_iff]

theorem Represents.eq_iff (hv : v.Represents S) (hw : w.Represents T) : v = w ↔ S = T := by
  constructor
  · rintro rfl
    rw [← hv.toList_toFinset, hw.toList_toFinset]
  · rintro rfl
    have hlists : v.states.toList = w.states.toList :=
      hv.ascending.eq_of_mem_iff hw.ascending fun q => by simp [hv.mem_iff, hw.mem_iff]
    cases v
    cases w
    simpa using hlists

end Represented

/-! ## Hashes and order -/

theorem hashInto_cons (v : StateVector) :
    v.hashInto (fun written n => n :: written) [] = v.states.toList.reverse ++ [v.size] := by
  rw [hashInto, ← Array.foldl_toList]
  simp

/-- What is written to a hash determines the vector. -/
theorem hashInto_inj {v w : StateVector} :
    (∀ (σ : Type) (write : σ → Nat → σ) (hash : σ),
      v.hashInto write hash = w.hashInto write hash) ↔ v = w := by
  constructor
  · intro h
    have hwritten := h (List Nat) (fun written n => n :: written) []
    rw [hashInto_cons, hashInto_cons] at hwritten
    obtain ⟨hstates, -⟩ := List.append_inj' hwritten rfl
    cases v
    cases w
    simpa using hstates
  · rintro rfl σ write hash
    rfl

theorem compare_def (v w : StateVector) :
    compare v w = compare v.states.toList w.states.toList := rfl

instance : Std.TransOrd StateVector where
  eq_swap := by
    intro v w
    rw [compare_def, compare_def]
    exact Std.OrientedOrd.eq_swap
  isLE_trans := by
    intro u v w huv hvw
    rw [compare_def] at huv hvw ⊢
    exact Std.TransOrd.isLE_trans huv hvw

theorem compare_eq_iff {v w : StateVector} : compare v w = .eq ↔ v = w := by
  rw [compare_def, Std.compare_eq_iff_eq]
  cases v
  cases w
  simp

/-! ## Histories of calls -/

section

variable {β γ : Type} {R : β → γ → Prop} {bs : List β} {cs : List γ}

theorem forall₂_getElem? (h : List.Forall₂ R bs cs) (i : Nat) :
    bs[i]? = none ∧ cs[i]? = none ∨ ∃ b c, bs[i]? = some b ∧ cs[i]? = some c ∧ R b c := by
  induction h generalizing i with
  | nil => exact .inl ⟨rfl, rfl⟩
  | cons hbc _ ih =>
      cases i with
      | zero => exact .inr ⟨_, _, rfl, rfl, hbc⟩
      | succ i => exact ih i

theorem forall₂_modify (h : List.Forall₂ R bs cs) {f : β → β} {g : γ → γ}
    (hfg : ∀ b c, R b c → R (f b) (g c)) (i : Nat) :
    List.Forall₂ R (bs.modify i f) (cs.modify i g) := by
  induction h generalizing i with
  | nil => simp
  | cons hbc hrest ih =>
      cases i with
      | zero => exact .cons (hfg _ _ hbc) hrest
      | succ i => exact .cons hbc (ih i)

end

theorem represents_on {sets : List StateVector} {sets' : List (Finset State)}
    (h : List.Forall₂ Represents sets sets') (c : Call) :
    List.Forall₂ Represents (c.on operations sets) (c.on finsetOperations sets') := by
  cases c with
  | empty => exact List.rel_append h (.cons represents_empty .nil)
  | singleton q => exact List.rel_append h (.cons (represents_singleton q) .nil)
  | ofStates states => exact List.rel_append h (.cons (represents_ofStates states) .nil)
  | copy i =>
      rcases forall₂_getElem? h i with ⟨hv, hS⟩ | ⟨v, S, hv, hS, hvS⟩
      · simpa [Call.on, hv, hS] using h
      · simpa [Call.on, hv, hS] using List.rel_append h (.cons hvS .nil)
  | union i j =>
      rcases forall₂_getElem? h i with ⟨hv, hS⟩ | ⟨v, S, hv, hS, hvS⟩
      · simpa [Call.on, hv, hS] using h
      · rcases forall₂_getElem? h j with ⟨hw, hT⟩ | ⟨w, T, hw, hT, hwT⟩
        · simpa [Call.on, hv, hS, hw, hT] using h
        · simp only [Call.on, hv, hS, hw, hT]
          exact List.rel_append h (.cons (hvS.union hwT) .nil)
  | insert i q => exact forall₂_modify h (fun v S hvS => hvS.insert q) i

theorem represents_foldl_on {sets : List StateVector} {sets' : List (Finset State)}
    (h : List.Forall₂ Represents sets sets') (calls : List Call) :
    List.Forall₂ Represents (calls.foldl (Call.on operations) sets)
      (calls.foldl (Call.on finsetOperations) sets') := by
  induction calls generalizing sets sets' with
  | nil => exact h
  | cons c calls ih => exact ih (represents_on h c)

end StateVector

/-! ## Sets that carry their order -/

namespace StateSet

open StateVector

def vector (s : StateSet) : StateVector := ⟨s.toList.toArray⟩

theorem represents_vector (s : StateSet) : s.vector.Represents s.toList.toFinset :=
  ⟨s.ascending, fun q => by simp [vector]⟩

/-- The vector of a set is the only one that represents its members. -/
theorem vector_eq_of_represents {v : StateVector} {S : Finset State} {s : StateSet}
    (hv : v.Represents S) (hmem : ∀ q, q ∈ s ↔ q ∈ S) : v = s.vector := by
  refine (hv.eq_iff s.represents_vector).2 ?_
  ext q
  rw [List.mem_toFinset, mem_toList, hmem]

theorem ofStates_eq_vector (states : List State) :
    ofStates states = (StateSet.ofList states).vector :=
  vector_eq_of_represents (represents_ofStates states) (by simp)

theorem vector_insert (s : StateSet) (q : State) :
    s.vector.insert q = (decide (q ∉ s), (s.insert q).vector) := by
  apply Prod.ext
  · rw [s.represents_vector.fresh q]
    simp [mem_toList]
  · exact vector_eq_of_represents (s.represents_vector.insert q) (by simp [mem_toList])

theorem vector_union (s t : StateSet) : s.vector.union t.vector = (s.union t).vector :=
  vector_eq_of_represents (s.represents_vector.union t.represents_vector) (by simp [mem_toList])

theorem vector_contains (s : StateSet) (q : State) : s.vector.contains q = decide (q ∈ s) := by
  rw [s.represents_vector.contains]
  simp [mem_toList]

theorem vector_isSubset (s t : StateSet) : s.vector.isSubset t.vector = s.isSubset t := by
  rw [s.represents_vector.isSubset t.represents_vector, StateSet.isSubset, Bool.eq_iff_iff]
  simp [Finset.subset_iff, mem_toList]

end StateSet

namespace StateVector

/--
Whatever calls are made, each vector ascends and holds the members of the set that the same calls
make.  It answers as that set does.  Vectors are equal, are hashed alike by every hash and compare
as equal exactly if their sets are equal, and the order is total.  The sets that carry their order
in their type are these vectors.
-/
theorem callAll_represents_finite_sets (calls : List Call) :
    List.Forall₂ Represents (callAll operations calls) (callAll finsetOperations calls) ∧
      (∀ v S, Represents v S →
        v.states.toList.Pairwise (· < ·) ∧ (∀ q, q ∈ v.states ↔ q ∈ S) ∧
          v.size = S.card ∧ v.isEmpty = decide (S = ∅) ∧
          ∀ q, v.contains q = decide (q ∈ S) ∧ (v.insert q).1 = decide (q ∉ S) ∧
            Represents (v.insert q).2 (Insert.insert q S)) ∧
      (∀ v w S T, Represents v S → Represents w T →
        Represents (v.union w) (S ∪ T) ∧ v.isSubset w = decide (S ⊆ T) ∧
          (v = w ↔ S = T) ∧
          ((∀ (σ : Type) (write : σ → Nat → σ) (hash : σ),
            v.hashInto write hash = w.hashInto write hash) ↔ S = T) ∧
          (compare v w = .eq ↔ S = T)) ∧
      (∀ u v w : StateVector, compare v w = (compare w v).swap ∧
        ((compare u v).isLE → (compare v w).isLE → (compare u w).isLE)) ∧
      ∀ (s t : StateSet) (q : State) (states : List State),
        ofStates states = (StateSet.ofList states).vector ∧
          s.vector.insert q = (decide (q ∉ s), (s.insert q).vector) ∧
          s.vector.union t.vector = (s.union t).vector ∧
          s.vector.contains q = decide (q ∈ s) ∧ s.vector.isSubset t.vector = s.isSubset t := by
  refine ⟨represents_foldl_on .nil calls, fun v S hv => ?_, fun v w S T hv hw => ?_,
    fun u v w => ?_, fun s t q states => ?_⟩
  · refine ⟨hv.ascending, hv.mem_iff, hv.size, hv.isEmpty, fun q => ?_⟩
    exact ⟨hv.contains q, hv.fresh q, hv.insert q⟩
  · refine ⟨hv.union hw, hv.isSubset hw, hv.eq_iff hw, ?_, ?_⟩
    · rw [hashInto_inj, hv.eq_iff hw]
    · rw [compare_eq_iff, hv.eq_iff hw]
  · exact ⟨Std.OrientedOrd.eq_swap, Std.TransOrd.isLE_trans⟩
  · refine ⟨StateSet.ofStates_eq_vector states, s.vector_insert q, ?_⟩
    exact ⟨s.vector_union t, s.vector_contains q, s.vector_isSubset t⟩

end StateVector

end Acceptors
