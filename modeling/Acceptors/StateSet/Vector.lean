import Acceptors.StateSet

/-!
# Sets of states in vectors

Here the members of a set stand in a vector, in ascending order and each of them once.  The type
does not ask for that order: every operation relies on it and leaves it behind.  A state is looked
for by halving the vector, and two vectors are united by merging them.  `Call` makes the operations
data, so that a history of them can be run.
-/

namespace Acceptors

structure StateVector where
  states : Array State
deriving DecidableEq, Repr

/-- Where a state stands among `size` others, or where it would have to be put in. -/
inductive Place (size : Nat) where
  | found (i : Fin size)
  | missing (i : Fin (size + 1))
deriving DecidableEq, Repr

namespace StateVector

/-- Looks for a state at the positions from `low` up to `high`, which are halved with each look. -/
def searchFrom (v : StateVector) (q : State) (low high : Nat) (h : low ≤ high)
    (hhigh : high ≤ v.states.size) : Place v.states.size :=
  if hlow : low < high then
    let middle := low + (high - low) / 2
    have hmiddle : middle < high := by omega
    if v.states[middle] = q then
      .found ⟨middle, by omega⟩
    else if v.states[middle] < q then
      searchFrom v q (middle + 1) high (by omega) hhigh
    else
      searchFrom v q low middle (by omega) (by omega)
  else
    .missing ⟨low, by omega⟩
termination_by high - low

def search (v : StateVector) (q : State) : Place v.states.size :=
  v.searchFrom q 0 v.states.size (Nat.zero_le _) (Nat.le_refl _)

def empty : StateVector := ⟨#[]⟩

def singleton (q : State) : StateVector := ⟨#[q]⟩

/-- Sorts the states; then the repeated ones are neighbours, and the first of them is kept. -/
def ofStates (states : List State) : StateVector := ⟨states.mergeSort.eraseReps.toArray⟩

def size (v : StateVector) : Nat := v.states.size

def isEmpty (v : StateVector) : Bool := v.states.isEmpty

def contains (v : StateVector) (q : State) : Bool :=
  match v.search q with
  | .found _ => true
  | .missing _ => false

/-- Puts a state in, and says whether it was not there before. -/
def insert (v : StateVector) (q : State) : Bool × StateVector :=
  match v.search q with
  | .found _ => (false, v)
  | .missing i => (true, ⟨v.states.insertIdx i q (Nat.le_of_lt_succ i.isLt)⟩)

/-- Merges the vectors; a state of both of them is then its own neighbour. -/
def union (v w : StateVector) : StateVector :=
  ⟨(v.states.toList.merge w.states.toList).eraseReps.toArray⟩

def isSubset (v w : StateVector) : Bool := v.states.all w.contains

def text (v : StateVector) : String := StateSet.braced (v.states.toList.map State.text)

/-- Lexicographic order of the vectors. -/
instance : Ord StateVector := ⟨fun v w => compare v.states.toList w.states.toList⟩

/-- Writes to a hash what it is made from: the number of members, then the members in order. -/
def hashInto {σ : Type} (write : σ → Nat → σ) (hash : σ) (v : StateVector) : σ :=
  v.states.foldl write (write hash v.size)

end StateVector

/-! ## Calls as data -/

/-- What sets of a kind are made with. -/
structure SetOperations (σ : Type) where
  empty : σ
  singleton : State → σ
  ofStates : List State → σ
  union : σ → σ → σ
  insert : σ → State → σ

namespace StateVector

def operations : SetOperations StateVector where
  empty := empty
  singleton := singleton
  ofStates := ofStates
  union := union
  insert v q := (v.insert q).2

/-- A call that makes a set or changes one.  Sets are named in the order in which they were made. -/
inductive Call where
  | empty
  | singleton (q : State)
  | ofStates (states : List State)
  | copy (i : Nat)
  | union (i j : Nat)
  | insert (i : Nat) (q : State)
deriving DecidableEq, Repr

variable {σ : Type}

/-- Runs a call on the sets made so far.  A call that names no set makes none. -/
def Call.on (ops : SetOperations σ) (sets : List σ) : Call → List σ
  | empty => sets ++ [ops.empty]
  | singleton q => sets ++ [ops.singleton q]
  | ofStates states => sets ++ [ops.ofStates states]
  | copy i => sets ++ sets[i]?.toList
  | union i j =>
      match sets[i]?, sets[j]? with
      | some s, some t => sets ++ [ops.union s t]
      | _, _ => sets
  | insert i q => sets.modify i fun s => ops.insert s q

/-- The sets that a history of calls leaves. -/
def callAll (ops : SetOperations σ) (calls : List Call) : List σ :=
  calls.foldl (Call.on ops) []

end StateVector

end Acceptors
