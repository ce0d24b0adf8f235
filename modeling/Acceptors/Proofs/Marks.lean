import Acceptors.BoundedSet.Marks
import Acceptors.Proofs.Search
import Mathlib.Data.List.Sort

/-!
# Tables of marks as sets of keys

A call on a table writes a mark and the count of the marks at two places.  `Represents` says which
keys have their marks set, that no other mark is set and that the count is right.  Each call keeps
it, so after every history the table stands for the keys below the bound that were inserted since
it was cleared last.  The answers of a table follow from that, and they are those of a bounded set.
-/

namespace Acceptors

section

variable {κ : Type} [Key κ] {k m : κ}

theorem Key.index_inj : index k = index m ↔ k = m :=
  (Function.LeftInverse.injective ofIndex_index).eq_iff

end

namespace Marks

variable {κ : Type}

def IsMarked (s : Marks κ) (i : Nat) : Prop := s.marked[i]? = some true

/-- The marks that are set are those of the keys with the property, and they are counted right. -/
structure Represents [Key κ] (s : Marks κ) (bound : Nat) (P : κ → Prop) : Prop where
  bound_eq : s.marked.size = bound
  isMarked_iff : ∀ i, s.IsMarked i ↔ ∃ k, P k ∧ Key.index k = i
  size_eq : s.size = s.marked.count true

/-- The key is inserted by one of the calls, and the table is not cleared after that. -/
def Call.Stays (k : κ) (calls : List (Call κ)) : Prop :=
  ∃ before after, calls = before ++ .insert k :: after ∧ .clear ∉ after

theorem Call.stays_cons {k : κ} {c : Call κ} {calls : List (Call κ)} :
    Stays k (c :: calls) ↔ Stays k calls ∨ c = .insert k ∧ .clear ∉ calls := by
  constructor
  · rintro ⟨before, after, heq, hafter⟩
    cases before with
    | nil =>
        cases heq
        exact .inr ⟨rfl, hafter⟩
    | cons _ before =>
        cases heq
        exact .inl ⟨before, after, rfl, hafter⟩
  · rintro (⟨before, after, rfl, hafter⟩ | ⟨rfl, hcalls⟩)
    · exact ⟨c :: before, after, rfl, hafter⟩
    · exact ⟨[], calls, rfl, hcalls⟩

theorem Call.not_stays_nil (k : κ) : ¬ Stays k [] := by
  rintro ⟨before, after, heq, -⟩
  simp at heq

@[simp] theorem size_marked_empty (bound : Nat) : (empty bound : Marks κ).marked.size = bound := by
  simp [empty]

@[simp] theorem size_marked_clear (s : Marks κ) : s.clear.marked.size = s.marked.size := by
  simp [clear]

@[simp] theorem not_isMarked_empty (bound i : Nat) : ¬ (empty bound : Marks κ).IsMarked i := by
  simp [IsMarked, empty, Array.getElem?_replicate]

@[simp] theorem not_isMarked_clear (s : Marks κ) (i : Nat) : ¬ s.clear.IsMarked i := by
  simp [IsMarked, clear]

variable [Key κ] {s : Marks κ} {k m : κ}

/-! ## One insertion -/

/-- An insertion sets the mark of the key, or there is none to set and nothing is changed. -/
theorem insert_cases (s : Marks κ) (k : κ) :
    (∃ h : Key.index k < s.marked.size, ¬ s.IsMarked (Key.index k) ∧
      s.insert k = (true, ⟨s.marked.set (Key.index k) true, s.size + 1⟩)) ∨
    (Key.index k < s.marked.size → s.IsMarked (Key.index k)) ∧ s.insert k = (false, s) := by
  unfold insert
  split
  · next h =>
    split
    · next hset => exact .inr ⟨fun _ => by simp [IsMarked, h, hset], rfl⟩
    · next hset => exact .inl ⟨h, by simpa [IsMarked, h] using hset, rfl⟩
  · next h => exact .inr ⟨fun hlt => absurd hlt h, rfl⟩

theorem isNew_insert :
    (s.insert k).1 = true ↔ Key.index k < s.marked.size ∧ ¬ s.IsMarked (Key.index k) := by
  obtain ⟨h, hunset, heq⟩ | ⟨hset, heq⟩ := s.insert_cases k
  · simp [heq, h, hunset]
  · simpa [heq] using hset

theorem insert_of_not_new (h : (s.insert k).1 = false) : (s.insert k).2 = s := by
  obtain ⟨hlt, -, heq⟩ | ⟨-, heq⟩ := s.insert_cases k
  · simp [heq] at h
  · rw [heq]

@[simp] theorem size_marked_insert : (s.insert k).2.marked.size = s.marked.size := by
  obtain ⟨h, -, heq⟩ | ⟨-, heq⟩ := s.insert_cases k
  · simp [heq]
  · rw [heq]

theorem isMarked_insert {i : Nat} :
    (s.insert k).2.IsMarked i ↔ s.IsMarked i ∨ i = Key.index k ∧ i < s.marked.size := by
  obtain ⟨h, -, heq⟩ | ⟨hset, heq⟩ := s.insert_cases k
  · by_cases hi : Key.index k = i
    · simp [IsMarked, heq, ← hi, h]
    · simp [IsMarked, heq, hi, Ne.symm hi]
  · rw [heq]
    constructor
    · exact .inl
    · rintro (hi | ⟨rfl, hi⟩)
      · exact hi
      · exact hset hi

theorem contains_iff : s.contains k = true ↔ s.IsMarked (Key.index k) := by
  unfold contains IsMarked
  split
  · next h => simp [h]
  · next h => simp [Array.getElem?_eq_none (Nat.le_of_not_lt h)]

theorem count_insert (h : s.size = s.marked.count true) :
    (s.insert k).2.size = (s.insert k).2.marked.count true := by
  obtain ⟨hlt, hunset, heq⟩ | ⟨-, heq⟩ := s.insert_cases k
  · have hfalse : s.marked[Key.index k] = false := by simpa [IsMarked, hlt] using hunset
    simp [heq, Array.count_set, hfalse, h]
  · rw [heq, h]

/-! ## Insertions one after the other -/

@[simp] theorem size_marked_insertAll (s : Marks κ) (keys : List κ) :
    (s.insertAll keys).2.marked.size = s.marked.size := by
  induction keys generalizing s with
  | nil => rfl
  | cons k keys ih => simp [insertAll, ih]

theorem isMarked_insertAll {keys : List κ} {i : Nat} :
    (s.insertAll keys).2.IsMarked i ↔
      s.IsMarked i ∨ i < s.marked.size ∧ ∃ k ∈ keys, i = Key.index k := by
  induction keys generalizing s with
  | nil => simp [insertAll]
  | cons k keys ih =>
      simp only [insertAll, ih, isMarked_insert, size_marked_insert, List.exists_mem_cons_iff]
      grind

/-- The new ones of some keys are those that were new before, each at its first occurrence. -/
theorem fresh_insertAll [DecidableEq κ] (s : Marks κ) (keys : List κ) :
    (s.insertAll keys).1 = (keys.filter fun k => (s.insert k).1).eraseDups := by
  induction keys generalizing s with
  | nil => rfl
  | cons k keys ih =>
      simp only [insertAll, ih]
      cases hnew : (s.insert k).1 with
      | false => simp [hnew, insert_of_not_new hnew]
      | true =>
          -- Once the key is in, it is new no more, and nothing else has changed.
          have hlater (m : κ) : ((s.insert k).2.insert m).1 = ((s.insert m).1 && !m == k) := by
            have hk := (isNew_insert.1 hnew).1
            rw [Bool.eq_iff_iff, Bool.and_eq_true, isNew_insert, isNew_insert, isMarked_insert]
            simp only [size_marked_insert, Key.index_inj]
            grind
          simp [hnew, hlater, List.eraseDups_cons, List.filter_filter, Bool.and_comm]

theorem mem_fresh_insertAll {keys : List κ} :
    k ∈ (s.insertAll keys).1 ↔
      k ∈ keys ∧ Key.index k < s.marked.size ∧ ¬ s.IsMarked (Key.index k) := by
  classical
  rw [fresh_insertAll, List.mem_eraseDups, List.mem_filter, isNew_insert]

theorem nodup_fresh_insertAll (s : Marks κ) (keys : List κ) : (s.insertAll keys).1.Nodup := by
  classical
  rw [fresh_insertAll]
  exact nodup_eraseDups _

/-! ## Histories of calls -/

section Represented

variable {bound : Nat} {P : κ → Prop}

theorem represents_empty (bound : Nat) :
    (empty bound : Marks κ).Represents bound fun _ => False where
  bound_eq := size_marked_empty bound
  isMarked_iff i := by simp
  size_eq := by simp [empty, Array.count_replicate]

theorem Represents.clear (h : s.Represents bound P) :
    s.clear.Represents bound fun _ => False where
  bound_eq := by rw [size_marked_clear, h.bound_eq]
  isMarked_iff i := by simp
  size_eq := (Array.count_eq_zero.2 (by simp [Marks.clear])).symm

theorem Represents.insert (h : s.Represents bound P) (k : κ) :
    (s.insert k).2.Represents bound fun m => P m ∨ m = k ∧ Key.index k < bound where
  bound_eq := by rw [size_marked_insert, h.bound_eq]
  isMarked_iff i := by
    rw [isMarked_insert, h.isMarked_iff, h.bound_eq]
    constructor
    · rintro (⟨m, hm, rfl⟩ | ⟨rfl, hlt⟩)
      · exact ⟨m, .inl hm, rfl⟩
      · exact ⟨k, .inr ⟨rfl, hlt⟩, rfl⟩
    · rintro ⟨m, hm | ⟨rfl, hlt⟩, rfl⟩
      · exact .inl ⟨m, hm, rfl⟩
      · exact .inr ⟨rfl, hlt⟩
  size_eq := count_insert h.size_eq

theorem Represents.congr {Q : κ → Prop} (h : s.Represents bound P) (hPQ : ∀ k, P k ↔ Q k) :
    s.Represents bound Q := by
  obtain rfl : P = Q := funext fun k => propext (hPQ k)
  exact h

theorem Represents.callAll (h : s.Represents bound P) (calls : List (Call κ)) :
    (s.callAll calls).Represents bound fun k =>
      P k ∧ .clear ∉ calls ∨ Key.index k < bound ∧ Call.Stays k calls := by
  induction calls generalizing s P with
  | nil => exact h.congr fun k => by simp [Call.not_stays_nil]
  | cons c calls ih =>
      cases c with
      | insert k =>
          refine (ih (h.insert k)).congr fun m => ?_
          rw [Call.stays_cons]
          simp only [Call.insert.injEq, List.mem_cons, reduceCtorEq, false_or]
          grind
      | clear =>
          refine (ih h.clear).congr fun m => ?_
          simp [Call.stays_cons]

theorem represents_callAll (bound : Nat) (calls : List (Call κ)) :
    ((empty bound).callAll calls).Represents bound fun k =>
      Key.index k < bound ∧ Call.Stays k calls :=
  ((represents_empty bound).callAll calls).congr fun k => by simp

/-! ## Answers -/

theorem Represents.contains (h : s.Represents bound P) : s.contains k = true ↔ P k := by
  rw [contains_iff, h.isMarked_iff]
  simp [Key.index_inj]

theorem Represents.isNew (h : s.Represents bound P) :
    (s.insert k).1 = true ↔ Key.index k < bound ∧ ¬ P k := by
  rw [isNew_insert, ← contains_iff, h.contains, h.bound_eq]

/-! ### The list of the members -/

omit [Key κ] in
theorem mem_places {i : Nat} : i ∈ s.places ↔ s.IsMarked i := by
  simp [places, IsMarked, List.mem_zipIdx_iff_getElem?]

omit [Key κ] in
theorem pairwise_places (s : Marks κ) : s.places.Pairwise (· < ·) := by
  have hrange : (s.marked.toList.zipIdx.map Prod.snd).Pairwise (· < ·) := by
    rw [List.zipIdx_map_snd]
    exact List.pairwise_lt_range'
  exact hrange.sublist (List.filter_sublist.map Prod.snd)

omit [Key κ] in
theorem length_places (s : Marks κ) : s.places.length = s.marked.count true := by
  have hfst : s.marked.toList.zipIdx.map Prod.fst = s.marked.toList := List.zipIdx_map_fst 0 _
  rw [← Array.count_toList, ← hfst, List.count, List.countP_map, List.countP_eq_length_filter]
  simp [places, Function.comp_def]

theorem Represents.map_index_toList (h : s.Represents bound P) :
    s.toList.map Key.index = s.places := by
  rw [toList, List.map_map]
  refine (List.map_congr_left fun i hi => ?_).trans (List.map_id _)
  obtain ⟨k, -, rfl⟩ := (h.isMarked_iff i).1 (mem_places.1 hi)
  simp [Key.ofIndex_index]

theorem Represents.mem_toList (h : s.Represents bound P) : k ∈ s.toList ↔ P k := by
  simp only [toList, List.mem_map, mem_places, h.isMarked_iff]
  constructor
  · rintro ⟨_, ⟨m, hm, rfl⟩, rfl⟩
    rwa [Key.ofIndex_index]
  · exact fun hk => ⟨Key.index k, ⟨k, hk, rfl⟩, Key.ofIndex_index k⟩

theorem Represents.pairwise_toList (h : s.Represents bound P) :
    s.toList.Pairwise fun k m => Key.index k < Key.index m := by
  rw [← List.pairwise_map, h.map_index_toList]
  exact s.pairwise_places

theorem Represents.length_toList (h : s.Represents bound P) : s.toList.length = s.size := by
  rw [toList, List.length_map, length_places, h.size_eq]

theorem Represents.size_le (h : s.Represents bound P) : s.size ≤ bound := by
  rw [h.size_eq, ← h.bound_eq]
  exact Array.count_le_size

theorem Represents.isEmpty (h : s.Represents bound P) : s.isEmpty = s.toList.isEmpty := by
  rw [Marks.isEmpty, ← h.length_toList, Bool.eq_iff_iff]
  simp

end Represented

/-! ## Bounded sets without a table -/

/-- The members of the bounded set are the numbers whose marks are set. -/
structure Agrees (s : Marks κ) (t : BoundedSet) : Prop where
  bound_eq : t.bound = s.marked.size
  mem_iff : ∀ i, i ∈ t ↔ s.IsMarked i

section Agreed

variable {t : BoundedSet}

omit [Key κ] in
theorem agrees_empty (bound : Nat) : (empty bound : Marks κ).Agrees (.empty bound) where
  bound_eq := (size_marked_empty bound).symm
  mem_iff i := by simp

theorem Agrees.call (agrees : s.Agrees t) (c : Call κ) : (s.call c).Agrees (c.on t) := by
  cases c with
  | insert k =>
      constructor
      · simp [Marks.call, Call.on, agrees.bound_eq]
      · intro i
        simp only [Marks.call, Call.on, BoundedSet.mem_insert_iff, isMarked_insert,
          agrees.mem_iff, agrees.bound_eq]
        grind
  | clear =>
      constructor
      · simp [Marks.call, Call.on, BoundedSet.clear, BoundedSet.empty, agrees.bound_eq]
      · simp [Marks.call, Call.on, BoundedSet.clear]

theorem Agrees.callAll (agrees : s.Agrees t) (calls : List (Call κ)) :
    (s.callAll calls).Agrees (calls.foldl Call.on t) := by
  induction calls generalizing s t with
  | nil => exact agrees
  | cons c calls ih => exact ih (agrees.call c)

omit [Key κ] in
theorem Agrees.toList (agrees : s.Agrees t) : t.toList = s.places := by
  have hascending : t.toList.Pairwise (· < ·) :=
    Std.TreeSet.ordered_toList.imp Nat.compare_eq_lt.1
  refine hascending.eq_of_mem_iff s.pairwise_places fun i => ?_
  rw [BoundedSet.mem_toList_iff, agrees.mem_iff, mem_places]

omit [Key κ] in
theorem Agrees.size (agrees : s.Agrees t) : t.size = s.marked.count true := by
  rw [← length_places, ← agrees.toList]
  exact Std.TreeSet.length_toList.symm

theorem Agrees.contains (agrees : s.Agrees t) (k : κ) :
    t.contains (Key.index k) = s.contains k := by
  rw [Bool.eq_iff_iff, contains_iff, BoundedSet.contains, decide_eq_true_iff, agrees.mem_iff]

theorem Agrees.isNew (agrees : s.Agrees t) (k : κ) :
    (t.insert (Key.index k)).1 = (s.insert k).1 := by
  rw [Bool.eq_iff_iff, isNew_insert, ← agrees.mem_iff, ← agrees.bound_eq, BoundedSet.insert]
  split
  · next h => simpa using h
  · next h => simpa using h

end Agreed

/--
Whatever calls are made, a table stands for the keys below its bound that were inserted since it was
cleared last.  A key is new exactly if it is below the bound and not among them, and nothing but a
new key is added.  The members are listed once each, in ascending order, and counted right.  A
bounded set gives the same answers after the same calls.  There is such a table for every bound that
there can be room for.
-/
theorem callAll_stands_for_inserted_keys (bound : Nat) (calls : List (Call κ)) :
    let s := (empty bound).callAll calls
    let t := calls.foldl Call.on (.empty bound)
    (∀ k, s.contains k = true ↔ Key.index k < bound ∧ Call.Stays k calls) ∧
      (∀ k, ((s.insert k).1 = true ↔ Key.index k < bound ∧ s.contains k = false) ∧
        (∀ m, (s.insert k).2.contains m = true ↔
          s.contains m = true ∨ m = k ∧ (s.insert k).1 = true) ∧
        ((s.insert k).1 = false → (s.insert k).2 = s)) ∧
      (s.size = s.toList.length ∧ s.size ≤ bound ∧ s.isEmpty = s.toList.isEmpty) ∧
      (∀ k, k ∈ s.toList ↔ s.contains k = true) ∧
      s.toList.Pairwise (fun k m => Key.index k < Key.index m) ∧
      t.toList = s.toList.map Key.index ∧ t.size = s.size ∧
      (∀ k, t.contains (Key.index k) = s.contains k ∧
        (t.insert (Key.index k)).1 = (s.insert k).1) ∧
      (ofBound? bound : Option (Marks κ)) =
        if bound ≤ Capacity.maxBytes then some (empty bound) else none := by
  intro s t
  have represents : s.Represents bound _ := represents_callAll bound calls
  have agrees : s.Agrees t := (agrees_empty bound).callAll calls
  refine ⟨fun k => represents.contains, fun k => ⟨?_, fun m => ?_, insert_of_not_new⟩, ?_,
    fun k => ?_, represents.pairwise_toList, ?_, ?_, fun k => ?_, ?_⟩
  · rw [represents.isNew, ← represents.contains, Bool.not_eq_true]
  · rw [(represents.insert k).contains, represents.contains, represents.isNew]
    grind
  · exact ⟨represents.length_toList.symm, represents.size_le, represents.isEmpty⟩
  · rw [represents.mem_toList, represents.contains]
  · rw [agrees.toList, represents.map_index_toList]
  · rw [agrees.size, represents.size_eq]
  · exact ⟨agrees.contains k, agrees.isNew k⟩
  · simp [ofBound?, Capacity.fits]

example : ((empty 4).callAll [.insert 2, .insert 2, .insert 0, .insert 7] : Marks UInt64) =
    ⟨#[true, false, true, false], 2⟩ := by decide

end Marks

end Acceptors
