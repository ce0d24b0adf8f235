/-!
# Sets of states

A state is named by its position in the order of creation.  A `StateSet` is a finite set of states
in its one canonical form, the strictly ascending list of its members, so that equal sets are equal
values and a set can serve as the key of a table.
-/

namespace Acceptors

abbrev State := Nat

namespace State

/-- The state at a position.  Positions have 32 bits; the higher bits of a number are dropped. -/
def ofIndex (n : Nat) : State := n % UInt32.size

def width : Nat := 4

def text (q : State) : String := "q" ++ toString q

end State

/-- Puts `q` at its place in an ascending list, unless it is there already. -/
def insertAscending (q : State) : List State → List State
  | [] => [q]
  | p :: states =>
      if q < p then q :: p :: states
      else if q = p then p :: states
      else p :: insertAscending q states

@[simp] theorem mem_insertAscending (q p : State) (states : List State) :
    p ∈ insertAscending q states ↔ p = q ∨ p ∈ states := by
  induction states with
  | nil => simp [insertAscending]
  | cons r states ih =>
      simp only [insertAscending]
      split
      · simp
      · split
        · simp_all
        · simp only [List.mem_cons, ih]
          grind

theorem pairwise_insertAscending (q : State) (states : List State)
    (h : states.Pairwise (· < ·)) : (insertAscending q states).Pairwise (· < ·) := by
  induction states with
  | nil => simp [insertAscending]
  | cons r states ih =>
      have hr := List.pairwise_cons.1 h
      simp only [insertAscending]
      split
      · refine List.pairwise_cons.2 ⟨fun p hp => ?_, h⟩
        rcases List.mem_cons.1 hp with rfl | hp
        · assumption
        · exact Nat.lt_trans ‹q < r› (hr.1 p hp)
      · split
        · exact h
        · refine List.pairwise_cons.2 ⟨fun p hp => ?_, ih hr.2⟩
          rcases (mem_insertAscending q p states).1 hp with rfl | hp
          · grind
          · exact hr.1 p hp

structure StateSet where
  toList : List State
  ascending : toList.Pairwise (· < ·)
deriving DecidableEq

namespace StateSet

/-- Sets in braces, the members by their names; the empty set has a sign of its own. -/
def braced : List String → String
  | [] => "∅"
  | names => "\x7b" ++ ", ".intercalate names ++ "\x7d"

def empty : StateSet := ⟨[], .nil⟩

instance : EmptyCollection StateSet := ⟨empty⟩

instance : Membership State StateSet := ⟨fun s q => q ∈ s.toList⟩

instance (q : State) (s : StateSet) : Decidable (q ∈ s) :=
  inferInstanceAs (Decidable (q ∈ s.toList))

def insert (s : StateSet) (q : State) : StateSet :=
  ⟨insertAscending q s.toList, pairwise_insertAscending q s.toList s.ascending⟩

def ofList (states : List State) : StateSet :=
  states.foldr (fun q s => s.insert q) ∅

def singleton (q : State) : StateSet := ⟨[q], by simp⟩

def size (s : StateSet) : Nat := s.toList.length

def isEmpty (s : StateSet) : Bool := s.toList.isEmpty

def union (s t : StateSet) : StateSet :=
  t.toList.foldl insert s

def isSubset (s t : StateSet) : Bool :=
  s.toList.all (· ∈ t)

/-- Lexicographic order of the ascending lists; a set comes after the sets that begin it. -/
instance : Ord StateSet := ⟨fun s t => compare s.toList t.toList⟩

theorem compare_eq (s t : StateSet) : compare s t = compare s.toList t.toList := rfl

instance : Std.TransOrd StateSet where
  eq_swap := by
    intro s t
    rw [compare_eq, compare_eq]
    exact Std.OrientedOrd.eq_swap
  isLE_trans := by
    intro s t u hst htu
    rw [compare_eq] at hst htu ⊢
    exact Std.TransOrd.isLE_trans hst htu

instance : Std.LawfulEqOrd StateSet where
  compare_self := by
    intro s
    rw [compare_eq]
    exact Std.ReflOrd.compare_self
  eq_of_compare := by
    intro s t h
    rw [compare_eq, Std.compare_eq_iff_eq] at h
    cases s
    cases t
    cases h
    rfl

theorem mem_toList {q : State} {s : StateSet} : q ∈ s.toList ↔ q ∈ s := Iff.rfl

@[simp] theorem not_mem_empty (q : State) : q ∉ (∅ : StateSet) := List.not_mem_nil

@[simp] theorem mem_insert {p q : State} {s : StateSet} : p ∈ s.insert q ↔ p = q ∨ p ∈ s :=
  mem_insertAscending q p s.toList

@[simp] theorem mem_singleton {p q : State} : p ∈ singleton q ↔ p = q := List.mem_singleton

@[simp] theorem mem_foldl_insert {p : State} {states : List State} {s : StateSet} :
    p ∈ states.foldl insert s ↔ p ∈ s ∨ p ∈ states := by
  induction states generalizing s with
  | nil => simp
  | cons q states ih => simp only [List.foldl_cons, ih, mem_insert, List.mem_cons]; grind

@[simp] theorem mem_ofList {p : State} {states : List State} :
    p ∈ ofList states ↔ p ∈ states := by
  induction states with
  | nil => simp [ofList]
  | cons q states ih => simpa [ofList] using or_congr Iff.rfl ih

@[simp] theorem mem_union {p : State} {s t : StateSet} : p ∈ s.union t ↔ p ∈ s ∨ p ∈ t :=
  mem_foldl_insert

end StateSet

end Acceptors
