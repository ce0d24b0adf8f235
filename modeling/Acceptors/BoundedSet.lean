import Acceptors.Capacity
import Std.Data.TreeSet

/-!
# Sets of numbers below a bound

A bounded set has room for every number below its bound.  Numbers at or beyond the bound are never
members, by the invariant in the type, and adding them changes nothing, by `mem_insert_iff`.
-/

namespace Acceptors

structure BoundedSet where
  bound : Nat
  members : Std.TreeSet Nat
  lt_bound : ∀ k ∈ members, k < bound

namespace BoundedSet

instance : Membership Nat BoundedSet := ⟨fun s k => k ∈ s.members⟩

instance (k : Nat) (s : BoundedSet) : Decidable (k ∈ s) :=
  inferInstanceAs (Decidable (k ∈ s.members))

def empty (bound : Nat) : BoundedSet := ⟨bound, ∅, by simp⟩

/-- The empty set of numbers below `bound`, if there is room for them. -/
def ofBound? (bound : Nat) : Option BoundedSet :=
  if Capacity.fits bound 1 then some (empty bound) else none

def contains (s : BoundedSet) (k : Nat) : Bool := decide (k ∈ s)

theorem forall_mem_insert_lt {s : BoundedSet} {k : Nat} (h : k < s.bound) :
    ∀ m ∈ s.members.insert k, m < s.bound := by
  intro m hm
  rcases Std.TreeSet.mem_insert.1 hm with hkm | hm
  · exact Std.compare_eq_iff_eq.1 hkm ▸ h
  · exact s.lt_bound m hm

def insert (s : BoundedSet) (k : Nat) : Bool × BoundedSet :=
  if h : k < s.bound ∧ k ∉ s then
    (true, ⟨s.bound, s.members.insert k, forall_mem_insert_lt h.1⟩)
  else
    (false, s)

def clear (s : BoundedSet) : BoundedSet := empty s.bound

def size (s : BoundedSet) : Nat := s.members.size

def isEmpty (s : BoundedSet) : Bool := s.size == 0

def toList (s : BoundedSet) : List Nat := s.members.toList

@[simp] theorem not_mem_empty_bound (bound k : Nat) : k ∉ empty bound :=
  Std.TreeSet.not_mem_emptyc

@[simp] theorem bound_insert (s : BoundedSet) (k : Nat) : (s.insert k).2.bound = s.bound := by
  unfold insert
  split <;> rfl

theorem mem_insert_iff {s : BoundedSet} {k m : Nat} :
    m ∈ (s.insert k).2 ↔ m ∈ s ∨ m = k ∧ k < s.bound := by
  unfold insert
  split
  · next h =>
      have hmem : m ∈ s.members.insert k ↔ m = k ∨ m ∈ s.members := by
        rw [Std.TreeSet.mem_insert, Std.compare_eq_iff_eq, @eq_comm Nat k]
      exact hmem.trans ⟨fun hm => hm.elim (fun hk => Or.inr ⟨hk, h.1⟩) Or.inl,
        fun hm => hm.elim Or.inr fun hk => Or.inl hk.1⟩
  · next h =>
      refine ⟨Or.inl, fun hm => hm.elim id ?_⟩
      rintro ⟨rfl, hk⟩
      exact Decidable.of_not_not fun hn => h ⟨hk, hn⟩

@[simp] theorem mem_toList_iff {s : BoundedSet} {k : Nat} : k ∈ s.toList ↔ k ∈ s :=
  Std.TreeSet.mem_toList

end BoundedSet

end Acceptors
