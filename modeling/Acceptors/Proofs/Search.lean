import Acceptors.Search.Indexed
import Mathlib.Data.List.Nodup
import Mathlib.Logic.Function.Iterate

/-!
# Exactness of the search

A search expands exactly the items that successors lead to from its seeds, each of them once.
`Search.Invariant` is what every step preserves.  The queue runs empty as soon as the limit is as
large as any list of different reached items, so no fuel is left unspent on a finite world.  The
items are popped in the order in which they are listed, one at every step.
-/

namespace Acceptors

theorem nodup_eraseDups {β : Type} [BEq β] [LawfulBEq β] :
    (items : List β) → items.eraseDups.Nodup
  | [] => by simp
  | b :: items => by
      rw [List.eraseDups_cons, List.nodup_cons]
      constructor
      · simp [List.mem_eraseDups]
      · exact nodup_eraseDups (items.filter fun c => !c == b)
termination_by items => items.length
decreasing_by exact Nat.lt_succ_of_le (List.length_filter_le _ _)

namespace Search

variable {β : Type}

/-- Successors lead to the item from a seed. -/
inductive Reached (next : β → List β) (seeds : List β) : β → Prop
  | seed {b : β} (h : b ∈ seeds) : Reached next seeds b
  | next {b c : β} (h : Reached next seeds b) (hc : c ∈ next b) : Reached next seeds c

/-- What holds of a search after any number of steps. -/
structure Invariant (next : β → List β) (seeds : List β) (s : Search β) : Prop where
  found_nodup : s.found.Nodup
  seeds_found : ∀ b ∈ seeds, b ∈ s.found
  found_reached : ∀ b ∈ s.found, Reached next seeds b
  expanded_closed : ∀ b ∈ s.expanded, ∀ c ∈ next b, c ∈ s.found

variable {next : β → List β} {seeds : List β} {s : Search β}

theorem mem_found {b : β} : b ∈ s.found ↔ b ∈ s.expanded ∨ b ∈ s.queue := by
  simp [found]

theorem length_found : s.found.length = s.expanded.length + s.queue.length := by
  simp [found]

variable [DecidableEq β]

theorem mem_fresh {b c : β} : c ∈ s.fresh next b ↔ c ∈ next b ∧ c ∉ s.found := by
  simp [fresh, mem_found, List.mem_eraseDups]

theorem nodup_fresh (b : β) : (s.fresh next b).Nodup := nodup_eraseDups _

theorem found_step {b : β} {queue : List β} (hqueue : s.queue = b :: queue) :
    (s.step next).found = s.found ++ s.fresh next b := by
  simp [step, found, hqueue]

theorem found_prefix_step : s.found <+: (s.step next).found := by
  cases hqueue : s.queue with
  | nil => simp [step, hqueue]
  | cons b queue => exact ⟨_, (found_step hqueue).symm⟩

theorem found_prefix_run (limit : Nat) : s.found <+: (s.run next limit).found := by
  induction limit generalizing s with
  | zero => exact List.prefix_rfl
  | succ limit ih =>
      rw [run]
      split
      · exact List.prefix_rfl
      · exact found_prefix_step.trans ih

theorem invariant_start (next : β → List β) (seeds : List β) :
    Invariant next seeds (start seeds) where
  found_nodup := by simpa [start, found] using nodup_eraseDups seeds
  seeds_found b hb := by simpa [start, mem_found, List.mem_eraseDups] using hb
  found_reached b hb := .seed (by simpa [start, mem_found, List.mem_eraseDups] using hb)
  expanded_closed b hb := by simp [start] at hb

theorem Invariant.step (inv : Invariant next seeds s) :
    Invariant next seeds (s.step next) := by
  cases hqueue : s.queue with
  | nil => simpa [Search.step, hqueue] using inv
  | cons b queue =>
      have hfound : (s.step next).found = s.found ++ s.fresh next b := found_step hqueue
      have hb : b ∈ s.found := by simp [mem_found, hqueue]
      constructor
      · rw [hfound]
        refine inv.found_nodup.append (nodup_fresh b) fun c hc hfresh => ?_
        exact (mem_fresh.1 hfresh).2 hc
      · intro c hc
        rw [hfound]
        exact List.mem_append_left _ (inv.seeds_found c hc)
      · intro c hc
        rw [hfound, List.mem_append, mem_fresh] at hc
        rcases hc with hc | ⟨hc, -⟩
        · exact inv.found_reached c hc
        · exact .next (inv.found_reached b hb) hc
      · intro c hc d hd
        have hexpanded : c = b ∨ c ∈ s.expanded := by simpa [Search.step, hqueue] using hc
        rw [hfound, List.mem_append, mem_fresh]
        by_cases hknown : d ∈ s.found
        · exact .inl hknown
        · rcases hexpanded with rfl | hc
          · exact .inr ⟨hd, hknown⟩
          · exact absurd (inv.expanded_closed c hc d hd) hknown

theorem Invariant.run (inv : Invariant next seeds s) (limit : Nat) :
    Invariant next seeds (s.run next limit) := by
  induction limit generalizing s with
  | zero => exact inv
  | succ limit ih =>
      rw [Search.run]
      split
      · exact inv
      · exact ih inv.step

/-- Lists of different reached items have at most this many of them. -/
def Bounded (next : β → List β) (seeds : List β) (count : Nat) : Prop :=
  ∀ items : List β, items.Nodup → (∀ b ∈ items, Reached next seeds b) → items.length ≤ count

theorem queue_run_eq_nil {count : Nat} (bounded : Bounded next seeds count)
    (inv : Invariant next seeds s) (limit : Nat) (hlimit : count ≤ s.expanded.length + limit) :
    (s.run next limit).queue = [] := by
  induction limit generalizing s with
  | zero =>
      have hle := bounded s.found inv.found_nodup inv.found_reached
      rw [length_found] at hle
      exact List.length_eq_zero_iff.1 (by rw [run]; omega)
  | succ limit ih =>
      rw [run]
      cases hqueue : s.queue with
      | nil => simp [hqueue]
      | cons b queue =>
          have hexpanded : (s.step next).expanded.length = s.expanded.length + 1 := by
            simp [step, hqueue]
          exact ih inv.step (by omega)

variable {count : Nat}

theorem queue_run_start_eq_nil (bounded : Bounded next seeds count) :
    ((start seeds).run next count).queue = [] :=
  queue_run_eq_nil bounded (invariant_start next seeds) count (by omega)

theorem reach_eq_found (bounded : Bounded next seeds count) :
    reach next count seeds = (run next count (start seeds)).found := by
  rw [reach, found, queue_run_start_eq_nil bounded, List.append_nil]

theorem nodup_reach (bounded : Bounded next seeds count) : (reach next count seeds).Nodup := by
  rw [reach_eq_found bounded]
  exact ((invariant_start next seeds).run count).found_nodup

theorem seeds_prefix_reach (bounded : Bounded next seeds count) :
    seeds.eraseDups <+: reach next count seeds := by
  rw [reach_eq_found bounded]
  have hprefix : (start seeds).found <+: ((start seeds).run next count).found :=
    found_prefix_run count
  simpa [start, found] using hprefix

/-- A search with a large enough limit reaches all that there is to reach, and nothing else. -/
theorem mem_reach (bounded : Bounded next seeds count) {b : β} :
    b ∈ reach next count seeds ↔ Reached next seeds b := by
  have inv := (invariant_start next seeds).run count
  rw [reach_eq_found bounded]
  constructor
  · exact inv.found_reached b
  · intro h
    induction h with
    | seed hb => exact inv.seeds_found _ hb
    | next _ hc ih =>
        have hexpanded := mem_found.1 ih
        rw [queue_run_start_eq_nil bounded] at hexpanded
        exact inv.expanded_closed _ (hexpanded.resolve_right List.not_mem_nil) _ hc

/-! ## Steps of the search -/

theorem step_of_queue_eq_nil (h : s.queue = []) : s.step next = s := by
  simp [step, h]

theorem run_eq_iterate (limit : Nat) (s : Search β) :
    s.run next limit = (fun s => s.step next)^[limit] s := by
  induction limit generalizing s with
  | zero => rfl
  | succ limit ih =>
      rw [run, Function.iterate_succ_apply, ih]
      cases hqueue : s.queue with
      | nil =>
          have hfixed : s.step next = s := step_of_queue_eq_nil hqueue
          rw [hfixed, Function.iterate_fixed hfixed]
          rfl
      | cons b queue => rfl

theorem run_succ (limit : Nat) (s : Search β) :
    s.run next (limit + 1) = (s.run next limit).step next := by
  simp only [run_eq_iterate, Function.iterate_succ_apply']

theorem run_add (m n : Nat) (s : Search β) :
    s.run next (m + n) = (s.run next m).run next n := by
  simp only [run_eq_iterate, Nat.add_comm m n, Function.iterate_add_apply]

theorem run_of_le {m n : Nat} (h : (s.run next m).queue = []) (hle : m ≤ n) :
    s.run next n = s.run next m := by
  obtain ⟨more, rfl⟩ := Nat.exists_eq_add_of_le hle
  rw [run_add, run_eq_iterate more, Function.iterate_fixed (step_of_queue_eq_nil h)]

theorem length_expanded_run (next : β → List β) (seeds : List β) (limit : Nat) :
    ((start seeds).run next limit).expanded.length = limit ∨
      ((start seeds).run next limit).queue = [] ∧
        ((start seeds).run next limit).expanded.length ≤ limit := by
  induction limit with
  | zero => exact .inl rfl
  | succ limit ih =>
      rw [run_succ]
      cases hqueue : ((start seeds).run next limit).queue with
      | nil =>
          rw [step_of_queue_eq_nil hqueue]
          refine .inr ⟨hqueue, ?_⟩
          rcases ih with hlength | ⟨-, hle⟩ <;> omega
      | cons b queue =>
          have hlength := ih.resolve_right (by simp [hqueue])
          simp [step, hqueue, hlength]

theorem reach_eq_of_queue_eq_nil (bounded : Bounded next seeds count) {limit : Nat}
    (h : ((start seeds).run next limit).queue = []) :
    reach next count seeds = ((start seeds).run next limit).expanded.reverse := by
  rw [reach]
  rcases Nat.le_total limit count with hle | hle
  · rw [run_of_le h hle]
  · rw [run_of_le (queue_run_start_eq_nil bounded) hle]

theorem found_prefix_reach (bounded : Bounded next seeds count) (limit : Nat) :
    ((start seeds).run next limit).found <+: reach next count seeds := by
  rw [reach_eq_found bounded]
  rcases Nat.le_total limit count with hle | hle
  · obtain ⟨more, rfl⟩ := Nat.exists_eq_add_of_le hle
    rw [run_add]
    exact found_prefix_run more
  · exact (congrArg found (run_of_le (queue_run_start_eq_nil bounded) hle)) ▸ List.prefix_rfl

/-- Step by step the reached items stand at the front of the queue, and then it is empty. -/
theorem head?_queue_run (bounded : Bounded next seeds count) (limit : Nat) :
    ((start seeds).run next limit).queue.head? = (reach next count seeds)[limit]? := by
  have hexpanded := length_expanded_run next seeds limit
  by_cases hqueue : ((start seeds).run next limit).queue = []
  · have hle : ((start seeds).run next limit).expanded.length ≤ limit := by omega
    rw [reach_eq_of_queue_eq_nil bounded hqueue, hqueue, List.head?_nil]
    exact (List.getElem?_eq_none (by simpa using hle)).symm
  · have hlength := hexpanded.resolve_right fun h => hqueue h.1
    have hpos := List.length_pos_iff.2 hqueue
    obtain ⟨later, hlater⟩ := found_prefix_reach bounded limit
    rw [← hlater, found, List.append_assoc, List.getElem?_append_right (by simp [hlength])]
    simp [hlength, List.getElem?_append_left hpos, List.head?_eq_getElem?]

theorem reach_of_le (bounded : Bounded next seeds count) {limit : Nat}
    (h : (reach next count seeds).length ≤ limit) :
    reach next limit seeds = reach next count seeds := by
  have hqueue : ((start seeds).run next limit).queue = [] := by
    rw [← List.head?_eq_none_iff, head?_queue_run bounded, List.getElem?_eq_none h]
  rw [reach_eq_of_queue_eq_nil bounded hqueue, reach]

end Search

namespace IndexedSearch

variable {β : Type} [Ord β] [DecidableEq β] [Std.TransOrd β] [Std.LawfulEqOrd β]

theorem Agrees.iterate {t : IndexedSearch β} {s : Search β} (agrees : t.Agrees s)
    (next : β → List β) (steps : Nat) :
    ((IndexedSearch.step next)^[steps] t).Agrees (s.run next steps) := by
  rw [Search.run_eq_iterate]
  induction steps with
  | zero => exact agrees
  | succ steps ih =>
      rw [Function.iterate_succ_apply', Function.iterate_succ_apply']
      exact ih.step next

end IndexedSearch

end Acceptors
