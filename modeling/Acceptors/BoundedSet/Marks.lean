import Acceptors.BoundedSet

/-!
# Bounded sets in tables of marks

Here every number below the bound has a mark, and a number beside the table says how many of the
marks are set.  The type does not ask for that number to be right: it is kept apart from the marks,
and every operation leaves both as they should be.  Members are named by keys that stand for their
numbers.  `Call` makes the calls that change a table data, so that a history of them can be run.
-/

namespace Acceptors

/-- Keys stand for numbers.  There may be numbers that no key stands for. -/
class Key (κ : Type) where
  index : κ → Nat
  ofIndex : Nat → κ
  ofIndex_index (k : κ) : ofIndex (index k) = k

instance : Key Nat := ⟨id, id, fun _ => rfl⟩

/-- Of a number that is too large the low 32 bits are kept. -/
instance : Key UInt32 := ⟨UInt32.toNat, UInt32.ofNat, fun _ => UInt32.ofNat_toNat⟩

/-- Of a number that is too large the low 64 bits are kept. -/
instance : Key UInt64 := ⟨UInt64.toNat, UInt64.ofNat, fun _ => UInt64.ofNat_toNat⟩

structure Marks (κ : Type) where
  marked : Array Bool
  /-- How many marks are set. -/
  size : Nat
deriving DecidableEq, Repr

namespace Marks

variable {κ : Type}

def empty (bound : Nat) : Marks κ := ⟨Array.replicate bound false, 0⟩

/-- A table without marks for the numbers below `bound`, if there is room for it. -/
def ofBound? (bound : Nat) : Option (Marks κ) :=
  if Capacity.fits bound 1 then some (empty bound) else none

def isEmpty (s : Marks κ) : Bool := s.size == 0

def clear (s : Marks κ) : Marks κ := ⟨s.marked.map fun _ => false, 0⟩

/-- How many marks are not set. -/
def room (s : Marks κ) : Nat := s.marked.count false

/-- The numbers whose marks are set, in the order of the table. -/
def places (s : Marks κ) : List Nat :=
  (s.marked.toList.zipIdx.filter fun (isSet, _) => isSet).map fun (_, i) => i

variable [Key κ]

def contains (s : Marks κ) (k : κ) : Bool :=
  if h : Key.index k < s.marked.size then s.marked[Key.index k] else false

/-- Sets the mark of a key and says whether it was not set before.  Some keys have no mark. -/
def insert (s : Marks κ) (k : κ) : Bool × Marks κ :=
  if h : Key.index k < s.marked.size then
    if s.marked[Key.index k] then (false, s)
    else (true, ⟨s.marked.set (Key.index k) true, s.size + 1⟩)
  else (false, s)

/-- Inserts keys one after the other, and lists those that were not there before. -/
def insertAll (s : Marks κ) : List κ → List κ × Marks κ
  | [] => ([], s)
  | k :: keys =>
      let (isNew, t) := s.insert k
      let (fresh, u) := t.insertAll keys
      (if isNew then k :: fresh else fresh, u)

def toList (s : Marks κ) : List κ := s.places.map Key.ofIndex

/-! ## Calls as data -/

inductive Call (κ : Type) where
  | insert (k : κ)
  | clear
deriving DecidableEq, Repr

def call (s : Marks κ) : Call κ → Marks κ
  | .insert k => (s.insert k).2
  | .clear => s.clear

def callAll (s : Marks κ) (calls : List (Call κ)) : Marks κ := calls.foldl call s

/-- The same call on a bounded set without a table. -/
def Call.on (t : BoundedSet) : Call κ → BoundedSet
  | insert k => (t.insert (Key.index k)).2
  | clear => t.clear

/-! ## Marks that can be set -/

omit [Key κ] in
theorem room_set {s : Marks κ} {i : Nat} (h : i < s.marked.size) (hunset : s.marked[i] = false)
    (size : Nat) : (⟨s.marked.set i true, size⟩ : Marks κ).room + 1 = s.room := by
  have hpos : 0 < s.marked.count false :=
    Array.count_pos_iff.2 (hunset ▸ Array.getElem_mem h)
  have hset : (s.marked.set i true).count false = s.marked.count false - 1 := by
    simp [Array.count_set, hunset]
  rw [room, room, hset]
  omega

/-- Each key that is new takes one of the marks that are not set. -/
theorem room_insertAll (s : Marks κ) (keys : List κ) :
    (s.insertAll keys).1.length + (s.insertAll keys).2.room = s.room := by
  induction keys generalizing s with
  | nil => simp [insertAll]
  | cons k keys ih =>
      simp only [insertAll]
      unfold insert
      split
      · next h =>
        split
        · simpa using ih s
        · next hunset =>
          have hset := room_set h (by simpa using hunset) (s.size + 1)
          have hrest := ih ⟨s.marked.set (Key.index k) true, s.size + 1⟩
          simp only [if_true, List.length_cons]
          omega
      · simpa using ih s

end Marks

end Acceptors
