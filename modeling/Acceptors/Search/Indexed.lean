import Acceptors.Search
import Std.Data.TreeSet

/-!
# Breadth-first search with a table of known items

An indexed search asks a table, and not its lists, whether an item was found before.  By
`IndexedSearch.reach_eq` it reaches the same items in the same order.
-/

namespace Acceptors

/-- The items found new in a list, the last one first, and all items known by then. -/
structure Sifted (β : Type) [Ord β] where
  fresh : List β
  known : Std.TreeSet β

namespace Sifted

variable {β : Type} [Ord β]

def add (s : Sifted β) (b : β) : Sifted β :=
  if b ∈ s.known then s else ⟨b :: s.fresh, s.known.insert b⟩

/-- Divides a list of items by what is known of them and of those before them. -/
def ofList (known : Std.TreeSet β) (items : List β) : Sifted β := items.foldl add ⟨[], known⟩

variable [DecidableEq β] [Std.TransOrd β] [Std.LawfulEqOrd β]

omit [DecidableEq β] in
theorem mem_known_add (s : Sifted β) (b c : β) :
    c ∈ (s.add b).known ↔ c ∈ s.known ∨ c = b := by
  unfold add
  split
  · exact ⟨Or.inl, fun h => h.elim id fun hc => hc ▸ ‹b ∈ s.known›⟩
  · rw [Std.TreeSet.mem_insert, Std.compare_eq_iff_eq, or_comm, @eq_comm β b]

omit [DecidableEq β] in
theorem mem_known_foldl_add (items : List β) (s : Sifted β) (c : β) :
    c ∈ (items.foldl add s).known ↔ c ∈ s.known ∨ c ∈ items := by
  induction items generalizing s with
  | nil => simp
  | cons b items ih => rw [List.foldl_cons, ih, mem_known_add, List.mem_cons, or_assoc]

omit [DecidableEq β] in
theorem mem_known_ofList {known : Std.TreeSet β} {items : List β} {c : β} :
    c ∈ (ofList known items).known ↔ c ∈ known ∨ c ∈ items :=
  mem_known_foldl_add items _ c

theorem fresh_foldl_add (items : List β) (s : Sifted β) :
    (items.foldl add s).fresh =
      ((items.filter fun c => c ∉ s.known).eraseDups).reverse ++ s.fresh := by
  induction items generalizing s with
  | nil => simp
  | cons b items ih =>
      rw [List.foldl_cons, ih]
      by_cases hb : b ∈ s.known
      · simp [add, hb]
      · have hfilter : (items.filter fun c => c ∉ (s.add b).known) =
            (items.filter fun c => c ∉ s.known).filter fun c => !c == b := by
          rw [List.filter_filter]
          refine List.filter_congr fun c _ => ?_
          simp [mem_known_add, and_comm, Bool.beq_eq_decide_eq]
        rw [hfilter, List.filter_cons_of_pos (by simpa using hb), List.eraseDups_cons]
        simp [add, hb]

theorem reverse_fresh_ofList (known : Std.TreeSet β) (items : List β) :
    (ofList known items).fresh.reverse =
      (items.filter fun c => c ∉ known).eraseDups := by
  simp [ofList, fresh_foldl_add]

end Sifted

section Distinct

variable {β : Type} [Ord β]

/-- The items of a list, each of them once, in the order of their first occurrence. -/
def distinct (items : List β) : List β := (Sifted.ofList ∅ items).fresh.reverse

variable [DecidableEq β] [Std.TransOrd β] [Std.LawfulEqOrd β]

theorem distinct_eq_eraseDups (items : List β) : distinct items = items.eraseDups := by
  rw [distinct, Sifted.reverse_fresh_ofList, List.filter_eq_self.2 (by simp)]

omit [DecidableEq β] in
@[simp] theorem mem_distinct {items : List β} {b : β} : b ∈ distinct items ↔ b ∈ items := by
  classical
  rw [distinct_eq_eraseDups, List.mem_eraseDups]

end Distinct

structure IndexedSearch (β : Type) [Ord β] where
  expanded : List β
  queue : List β
  known : Std.TreeSet β

namespace IndexedSearch

variable {β : Type} [Ord β]

def start (seeds : List β) : IndexedSearch β :=
  let sifted := Sifted.ofList ∅ seeds
  ⟨[], sifted.fresh.reverse, sifted.known⟩

def step (next : β → List β) : IndexedSearch β → IndexedSearch β
  | ⟨expanded, [], known⟩ => ⟨expanded, [], known⟩
  | ⟨expanded, b :: queue, known⟩ =>
      let sifted := Sifted.ofList known (next b)
      ⟨b :: expanded, queue ++ sifted.fresh.reverse, sifted.known⟩

def run (next : β → List β) : Nat → IndexedSearch β → IndexedSearch β
  | 0, s => s
  | limit + 1, s => if s.queue.isEmpty then s else run next limit (s.step next)

/-- The items reached from the seeds, in the order of discovery, if `limit` suffices. -/
def reach (next : β → List β) (limit : Nat) (seeds : List β) : List β :=
  (run next limit (start seeds)).expanded.reverse

/-- The table knows exactly the items that the lists of a search hold. -/
structure Agrees (t : IndexedSearch β) (s : Search β) : Prop where
  expanded_eq : t.expanded = s.expanded
  queue_eq : t.queue = s.queue
  mem_known : ∀ c, c ∈ t.known ↔ c ∈ s.expanded ∨ c ∈ s.queue

variable [DecidableEq β] [Std.TransOrd β] [Std.LawfulEqOrd β]

theorem agrees_start (seeds : List β) : (start seeds).Agrees (Search.start seeds) where
  expanded_eq := rfl
  queue_eq := by
    rw [start, Sifted.reverse_fresh_ofList, List.filter_eq_self.2 (by simp)]
    rfl
  mem_known c := by simp [start, Search.start, Sifted.mem_known_ofList]

theorem Agrees.step {t : IndexedSearch β} {s : Search β} (agrees : t.Agrees s)
    (next : β → List β) : (t.step next).Agrees (s.step next) := by
  obtain ⟨expanded, queue, known⟩ := t
  obtain ⟨expanded', queue'⟩ := s
  obtain ⟨hexpanded, hqueue, hknown⟩ := agrees
  cases hexpanded
  cases hqueue
  cases queue with
  | nil => exact ⟨rfl, rfl, hknown⟩
  | cons b queue =>
      have hfresh : (Sifted.ofList known (next b)).fresh.reverse =
          Search.fresh ⟨expanded, b :: queue⟩ next b := by
        rw [Sifted.reverse_fresh_ofList, Search.fresh]
        congr 1
        refine List.filter_congr fun c _ => ?_
        simp [hknown]
      refine ⟨rfl, congrArg (queue ++ ·) hfresh, fun c => ?_⟩
      simp only [IndexedSearch.step, Search.step, Sifted.mem_known_ofList, hknown, Search.fresh,
        List.mem_cons, List.mem_append, List.mem_eraseDups, List.mem_filter, decide_eq_true_eq]
      grind

theorem Agrees.run {t : IndexedSearch β} {s : Search β} (agrees : t.Agrees s)
    (next : β → List β) (limit : Nat) : (t.run next limit).Agrees (s.run next limit) := by
  induction limit generalizing t s with
  | zero => exact agrees
  | succ limit ih =>
      rw [IndexedSearch.run, Search.run, agrees.queue_eq]
      split
      · exact agrees
      · exact ih (agrees.step next)

/-- The table changes how fast a search is and not what it reaches. -/
theorem reach_eq (next : β → List β) (limit : Nat) (seeds : List β) :
    reach next limit seeds = Search.reach next limit seeds :=
  congrArg List.reverse ((agrees_start seeds).run next limit).expanded_eq

end IndexedSearch

end Acceptors
