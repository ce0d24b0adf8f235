import Acceptors.Label
import Acceptors.StateSet

/-!
# Transitions and moves

A transition leads from a state to a state under a label.  `Moves` arranges transitions by their
source, so that a run finds what leaves a state without a search.  By `leaving_ofRecent` nothing is
lost, and the order of the transitions of one state is kept.
-/

namespace Acceptors

structure Transition (α : Type) where
  source : State
  label : Label α
  target : State
deriving DecidableEq, Repr

def Transition.text {α : Type} [Letter α] (t : Transition α) : String :=
  t.source.text ++ " -" ++ t.label.text ++ "-> " ++ t.target.text

/-- The labels and targets of the transitions from each state, and how many states there are. -/
structure Moves (α : Type) where
  stateCount : Nat
  outgoing : Array (List (Label α × State))
deriving DecidableEq, Repr

namespace Moves

variable {α : Type}

/-- All transitions have sources below this number. -/
def sourceBound (recent : List (Transition α)) : Nat :=
  recent.foldr (fun t n => max n (t.source + 1)) 0

def record (t : Transition α) (table : Array (List (Label α × State))) :
    Array (List (Label α × State)) :=
  table.modify t.source ((t.label, t.target) :: ·)

/-- The table of the transitions with sources below `n`, of which the most recent comes first. -/
def bySource (n : Nat) (recent : List (Transition α)) : Array (List (Label α × State)) :=
  recent.foldr record (Array.replicate n [])

def ofRecent (stateCount : Nat) (recent : List (Transition α)) : Moves α where
  stateCount := stateCount
  outgoing := bySource (sourceBound recent) recent

def contains (m : Moves α) (q : State) : Bool := decide (q < m.stateCount)

def leaving (m : Moves α) (p : State) : List (Label α × State) := m.outgoing[p]?.getD []

theorem lt_sourceBound {recent : List (Transition α)} {t : Transition α} (h : t ∈ recent) :
    t.source < sourceBound recent := by
  induction recent with
  | nil => cases h
  | cons u ts ih =>
      rw [sourceBound, List.foldr_cons]
      rcases List.mem_cons.1 h with rfl | h
      · exact Nat.lt_of_lt_of_le (Nat.lt_succ_self _) (Nat.le_max_right _ _)
      · exact Nat.lt_of_lt_of_le (ih h) (Nat.le_max_left _ _)

theorem size_bySource (n : Nat) (recent : List (Transition α)) :
    (bySource n recent).size = n := by
  induction recent with
  | nil => simp [bySource]
  | cons t ts ih => rw [bySource, List.foldr_cons, record, Array.size_modify, ← bySource, ih]

theorem getElem?_bySource (n : Nat) (recent : List (Transition α)) (p : State) (h : p < n) :
    (bySource n recent)[p]? =
      some (recent.filterMap fun t => if t.source = p then some (t.label, t.target) else none) := by
  induction recent with
  | nil => simp [bySource, h]
  | cons t ts ih =>
      rw [bySource, List.foldr_cons, record, Array.getElem?_modify, ← bySource, ih,
        List.filterMap_cons]
      by_cases ht : t.source = p <;> simp [ht]

theorem mem_getD_bySource {n : Nat} {recent : List (Transition α)} {t : Transition α}
    (h : t.source < n) :
    (t.label, t.target) ∈ (bySource n recent)[t.source]?.getD [] ↔ t ∈ recent := by
  rw [getElem?_bySource n recent t.source h, Option.getD_some, List.mem_filterMap]
  constructor
  · rintro ⟨u, hu, hut⟩
    split at hut
    · next hs =>
        cases u
        cases t
        cases hs
        cases hut
        exact hu
    · cases hut
  · exact fun ht => ⟨t, ht, if_pos rfl⟩

/-- Nothing else leaves a state than what the transitions say, in their order. -/
theorem leaving_ofRecent (stateCount : Nat) (recent : List (Transition α)) (p : State) :
    (ofRecent stateCount recent).leaving p =
      recent.filterMap fun t => if t.source = p then some (t.label, t.target) else none := by
  by_cases h : p < sourceBound recent
  · rw [leaving, ofRecent, getElem?_bySource _ _ _ h, Option.getD_some]
  · rw [leaving, ofRecent, Array.getElem?_eq_none (by
      rw [size_bySource]
      exact Nat.le_of_not_lt h)]
    refine (List.filterMap_eq_nil_iff.2 fun t ht => if_neg fun hp => h ?_).symm
    exact hp ▸ lt_sourceBound ht

variable [DecidableEq α]

def targets (m : Moves α) (p : State) (label : Label α) : List State :=
  (m.leaving p).filterMap fun (l, q) => if l = label then some q else none

theorem targets_ofRecent (stateCount : Nat) (recent : List (Transition α)) (p : State)
    (label : Label α) :
    (ofRecent stateCount recent).targets p label =
      recent.filterMap fun t =>
        if t.source = p ∧ t.label = label then some t.target else none := by
  rw [targets, leaving_ofRecent]
  induction recent with
  | nil => rfl
  | cons t ts ih =>
      by_cases ht : t.source = p <;> by_cases hl : t.label = label <;> simp_all

end Moves

end Acceptors
