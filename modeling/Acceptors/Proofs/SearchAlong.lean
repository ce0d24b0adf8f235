import Acceptors.Proofs.Search
import Mathlib.Data.Set.Function

/-!
# Searches along a map

Two searches run in lockstep if a map carries the seeds and the successors of one to those of the
other and keeps reached items apart.  Every step keeps the two queues and the two lists of expanded
items in correspondence, so that the second search reaches the images of what the first one
reaches, in the same order.
-/

namespace Acceptors

section Injective

variable {β γ : Type} {φ : β → γ} {P : Set β} {items : List β}

theorem mem_map_iff_of_injOn (hinj : Set.InjOn φ P) (hitems : ∀ c ∈ items, c ∈ P) {b : β}
    (hb : b ∈ P) : φ b ∈ items.map φ ↔ b ∈ items := by
  rw [List.mem_map]
  constructor
  · rintro ⟨c, hc, heq⟩
    exact hinj (hitems c hc) hb heq ▸ hc
  · exact fun h => ⟨b, h, rfl⟩

variable [DecidableEq β] [DecidableEq γ]

theorem eraseDups_map_of_injOn (hinj : Set.InjOn φ P) (hitems : ∀ c ∈ items, c ∈ P) :
    (items.map φ).eraseDups = items.eraseDups.map φ := by
  induction hlength : items.length using Nat.strongRecOn generalizing items with
  | ind length ih =>
      cases items with
      | nil => rfl
      | cons b items =>
          obtain ⟨hb, hrest⟩ := List.forall_mem_cons.1 hitems
          have hfilter : (items.map φ).filter (fun c => !c == φ b) =
              (items.filter fun c => !c == b).map φ := by
            rw [List.filter_map]
            congr 1
            refine List.filter_congr fun c hc => ?_
            have hiff : φ c = φ b ↔ c = b := hinj.eq_iff (hrest c hc) hb
            simp [Bool.beq_eq_decide_eq, hiff]
          have hshorter : (items.filter fun c => !c == b).length < length := by
            have := List.length_filter_le (fun c => !c == b) items
            rw [List.length_cons] at hlength
            omega
          rw [List.map_cons, List.eraseDups_cons, List.eraseDups_cons, hfilter, List.map_cons,
            ih _ hshorter (fun c hc => hrest c (List.mem_filter.1 hc).1) rfl]

theorem idxOf?_map_of_injOn (hinj : Set.InjOn φ P) (hitems : ∀ c ∈ items, c ∈ P) {b : β}
    (hb : b ∈ P) : (items.map φ).idxOf? (φ b) = items.idxOf? b := by
  induction items with
  | nil => rfl
  | cons c items ih =>
      obtain ⟨hc, hrest⟩ := List.forall_mem_cons.1 hitems
      have hiff : φ c = φ b ↔ c = b := hinj.eq_iff hc hb
      simp only [List.map_cons, List.idxOf?_cons, beq_iff_eq, hiff, ih hrest]

end Injective

namespace Search

variable {β γ : Type} {next : β → List β} {next' : γ → List γ} {seeds : List β} {s : Search β}

/-- The search that holds the images of the items, in the same order. -/
def map (φ : β → γ) (s : Search β) : Search γ := ⟨s.expanded.map φ, s.queue.map φ⟩

/-- What is reached is carried along a map, and nothing that is reached is confused by it. -/
structure Along (φ : β → γ) (next : β → List β) (next' : γ → List γ) (seeds : List β) : Prop where
  injOn : Set.InjOn φ {b | Reached next seeds b}
  next_eq : ∀ b, Reached next seeds b → next' (φ b) = (next b).map φ

variable [DecidableEq β] [DecidableEq γ] {φ : β → γ}

theorem Along.start_map (along : Along φ next next' seeds) :
    start (seeds.map φ) = (start seeds).map φ := by
  rw [start, start, map, eraseDups_map_of_injOn along.injOn fun b hb => .seed hb]
  rfl

theorem Along.fresh_map (along : Along φ next next' seeds) (inv : Invariant next seeds s) {b : β}
    (hb : Reached next seeds b) : (s.map φ).fresh next' (φ b) = (s.fresh next b).map φ := by
  have hexpanded : ∀ c ∈ s.expanded, Reached next seeds c :=
    fun c hc => inv.found_reached c (mem_found.2 (.inl hc))
  have hqueue : ∀ c ∈ s.queue, Reached next seeds c :=
    fun c hc => inv.found_reached c (mem_found.2 (.inr hc))
  have hnext : ∀ c ∈ next b, Reached next seeds c := fun c hc => .next hb hc
  have hknown : ∀ c ∈ next b, (φ c ∉ s.expanded.map φ ∧ φ c ∉ s.queue.map φ) ↔
      (c ∉ s.expanded ∧ c ∉ s.queue) := by
    intro c hc
    rw [mem_map_iff_of_injOn along.injOn hexpanded (hnext c hc),
      mem_map_iff_of_injOn along.injOn hqueue (hnext c hc)]
  simp only [fresh, map, along.next_eq b hb, List.filter_map]
  rw [eraseDups_map_of_injOn along.injOn fun c hc => hnext c (List.mem_filter.1 hc).1]
  congr 2
  exact List.filter_congr fun c hc => decide_eq_decide.2 (hknown c hc)

theorem Along.step_map (along : Along φ next next' seeds) (inv : Invariant next seeds s) :
    (s.map φ).step next' = (s.step next).map φ := by
  cases hqueue : s.queue with
  | nil => simp [step, map, hqueue]
  | cons b queue =>
      have hb : Reached next seeds b := inv.found_reached b (by simp [mem_found, hqueue])
      have hfresh := along.fresh_map inv hb
      simp only [map, hqueue, List.map_cons] at hfresh
      simp only [step, map, hqueue, List.map_cons, List.map_append, hfresh]

theorem Along.run_map (along : Along φ next next' seeds) (inv : Invariant next seeds s)
    (limit : Nat) : (s.map φ).run next' limit = (s.run next limit).map φ := by
  induction limit generalizing s with
  | zero => rfl
  | succ limit ih =>
      have hempty : (s.map φ).queue.isEmpty = s.queue.isEmpty := by simp [map]
      rw [run, run, hempty]
      split
      · rfl
      · rw [along.step_map inv, ih inv.step]

theorem Along.reach_map (along : Along φ next next' seeds) (limit : Nat) :
    reach next' limit (seeds.map φ) = (reach next limit seeds).map φ := by
  rw [reach, along.start_map, along.run_map (invariant_start next seeds), reach, map,
    List.map_reverse]

theorem length_reach_le {count : Nat} (bounded : Bounded next seeds count) :
    (reach next count seeds).length ≤ count :=
  bounded _ (nodup_reach bounded) fun _ hb => (mem_reach bounded).1 hb

/-- Searches along a map agree, whatever limits were set for them, if both limits suffice. -/
theorem Along.reach_map_of_bounded (along : Along φ next next' seeds) {count count' : Nat}
    (bounded : Bounded next seeds count) (bounded' : Bounded next' (seeds.map φ) count') :
    reach next' count' (seeds.map φ) = (reach next count seeds).map φ := by
  -- Both searches are over within the larger limit, and within it they run in lockstep.
  have hfirst : reach next (max count count') seeds = reach next count seeds :=
    reach_of_le bounded ((length_reach_le bounded).trans (Nat.le_max_left _ _))
  have hsecond : reach next' (max count count') (seeds.map φ) =
      reach next' count' (seeds.map φ) :=
    reach_of_le bounded' ((length_reach_le bounded').trans (Nat.le_max_right _ _))
  rw [← hsecond, along.reach_map, hfirst]

end Search

end Acceptors
