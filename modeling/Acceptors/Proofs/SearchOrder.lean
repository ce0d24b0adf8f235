import Acceptors.Proofs.Search
import Acceptors.Proofs.Shortlex
import Mathlib.Data.List.Induction

/-!
# Discovery in shortlex order

A search that moves under symbols, taken in the order of an alphabet, discovers items in the order
of the first words that lead to them.  `Search.Named` gives every found item the word of its
discovery.  Every step keeps it, and once the queue is empty no word leads to an item before the
word that names it.
-/

namespace Acceptors

section First

variable {α β : Type} {r : α → α → Prop} {items : List α} [DecidableEq β] {f : α → β}

theorem eq_or_rel_of_find? (h : items.Pairwise r) {a b : α} (hb : b ∈ items)
    (ha : items.find? (f · = f b) = some a) : a = b ∨ r a b := by
  obtain ⟨-, before, later, rfl, hbefore⟩ := List.find?_eq_some_iff_append.1 ha
  rw [List.mem_append, List.mem_cons] at hb
  rcases hb with hb | rfl | hb
  · simpa using hbefore b hb
  · exact .inl rfl
  · exact .inr ((List.pairwise_cons.1 (List.pairwise_append.1 h).2.1).1 b hb)

theorem exists_find?_map {b : α} (hb : b ∈ items) :
    ∃ a, items.find? (f · = f b) = some a ∧ f a = f b := by
  have hsome : (items.find? (f · = f b)).isSome := List.find?_isSome.2 ⟨b, hb, by simp⟩
  obtain ⟨a, ha⟩ := Option.isSome_iff_exists.1 hsome
  exact ⟨a, ha, by simpa using List.find?_some ha⟩

/--
Different results of a map are listed in the order of the items they come from, if each is traced
back to the first item that it comes from.
-/
theorem pairwise_eraseDups_filter_map (h : items.Pairwise r) (p : β → Bool) :
    ((items.map f).filter p).eraseDups.Pairwise fun c d =>
      ∀ a b, items.find? (f · = c) = some a → items.find? (f · = d) = some b → r a b := by
  induction items generalizing p with
  | nil => simp
  | cons x items ih =>
      obtain ⟨hx, hitems⟩ := List.pairwise_cons.1 h
      have hlater : ∀ c, f x ≠ c →
          (x :: items).find? (f · = c) = items.find? (f · = c) :=
        fun c hc => List.find?_cons_of_neg (by simpa using hc)
      -- Results other than that of the first item are traced back past it.
      have htail : ∀ q : β → Bool, q (f x) = false →
          ((items.map f).filter q).eraseDups.Pairwise fun c d =>
            ∀ a b, (x :: items).find? (f · = c) = some a →
              (x :: items).find? (f · = d) = some b → r a b := by
        intro q hq
        have hne : ∀ e ∈ ((items.map f).filter q).eraseDups, f x ≠ e := by
          rintro e he rfl
          simp [List.mem_eraseDups, hq] at he
        refine (ih hitems q).imp_of_mem fun {c d} hc hd hcd => ?_
        rwa [hlater c (hne c hc), hlater d (hne d hd)]
      rw [List.map_cons]
      by_cases hp : p (f x)
      · rw [List.filter_cons_of_pos hp, List.eraseDups_cons, List.filter_filter,
          List.pairwise_cons]
        refine ⟨fun d hd a b ha hb => ?_, htail _ (by simp)⟩
        have hne : f x ≠ d := by
          rintro rfl
          simp [List.mem_eraseDups] at hd
        rw [List.find?_cons_of_pos (by simp)] at ha
        rw [hlater d hne] at hb
        cases ha
        exact hx b (List.mem_of_find?_eq_some hb)
      · rw [List.filter_cons_of_neg hp]
        exact htail p (by simpa using hp)

end First

namespace Search

variable {α β : Type} {alphabet : List α} {move : β → α → β} {keep : β → Bool} {seed : β}

/-- The items worth keeping that symbols lead to, in the order of the symbols. -/
def nextUnder (alphabet : List α) (move : β → α → β) (keep : β → Bool) (b : β) : List β :=
  (alphabet.map (move b)).filter keep

theorem mem_nextUnder {b c : β} :
    c ∈ nextUnder alphabet move keep b ↔ ∃ a ∈ alphabet, move b a = c ∧ keep c := by
  simp only [nextUnder, List.mem_filter, List.mem_map]
  constructor
  · rintro ⟨⟨a, ha, hc⟩, hkeep⟩
    exact ⟨a, ha, hc, hkeep⟩
  · rintro ⟨a, ha, hc, hkeep⟩
    exact ⟨⟨a, ha, hc⟩, hkeep⟩

variable [DecidableEq α] {s : Search β} {name : β → List α}

/-- The words that name the found items are those of their discovery. -/
structure Named (alphabet : List α) (move : β → α → β) (keep : β → Bool) (seed : β) (s : Search β)
    (name : β → List α) : Prop where
  name_seed : name seed = []
  leads : ∀ c ∈ s.found, (name c).foldl move seed = c
  ascending : s.found.Pairwise fun b c => place alphabet (name b) < place alphabet (name c)
  grown : ∀ c ∈ s.found, name c = [] ∨ ∃ b ∈ s.expanded, ∃ a, name c = name b ++ [a]
  first : ∀ b ∈ s.expanded, ∀ a ∈ alphabet, keep (move b a) →
    place alphabet (name (move b a)) ≤ place alphabet (name b ++ [a])

theorem Named.name_lt_concat (named : Named alphabet move keep seed s name) {b c : β}
    {queue : List β} (hqueue : s.queue = b :: queue) (hc : c ∈ s.found) (a : α) :
    place alphabet (name c) < place alphabet (name b ++ [a]) := by
  rcases named.grown c hc with hnil | ⟨d, hd, a', hgrown⟩
  · rw [hnil]
    exact place_nil_lt_concat _ _
  · -- The item it grew from was expanded before `b`, and so it has the earlier name.
    have hascending := named.ascending
    rw [found, hqueue, List.pairwise_append] at hascending
    rw [hgrown]
    exact place_concat_lt_concat
      (hascending.2.2 d (List.mem_reverse.2 hd) b List.mem_cons_self) a' a

variable [DecidableEq β]

/-- Names what is found when `b` is expanded, and keeps the names of what was found before. -/
def nameFresh (alphabet : List α) (move : β → α → β) (s : Search β) (name : β → List α) (b : β) :
    β → List α := fun c =>
  if c ∈ s.found then name c else name b ++ (alphabet.find? (move b · = c)).toList

omit [DecidableEq α] in
theorem nameFresh_of_found {b c : β} (hc : c ∈ s.found) :
    nameFresh alphabet move s name b c = name c := if_pos hc

omit [DecidableEq α] in
theorem nameFresh_of_not_found {b c : β} {a : α} (hc : c ∉ s.found)
    (ha : alphabet.find? (move b · = c) = some a) :
    nameFresh alphabet move s name b c = name b ++ [a] := by
  rw [nameFresh, if_neg hc, ha]
  rfl

omit [DecidableEq α] in
theorem nameFresh_of_fresh (name : β → List α) {b c : β}
    (hc : c ∈ s.fresh (nextUnder alphabet move keep) b) :
    ∃ a, alphabet.find? (move b · = c) = some a ∧ move b a = c ∧
      nameFresh alphabet move s name b c = name b ++ [a] := by
  obtain ⟨hnext, hnew⟩ := mem_fresh.1 hc
  obtain ⟨a, ha, rfl, -⟩ := mem_nextUnder.1 hnext
  obtain ⟨a', hfirst, hmove⟩ := exists_find?_map (f := move b) ha
  exact ⟨a', hfirst, hmove, nameFresh_of_not_found hnew hfirst⟩

theorem pairwise_fresh (halphabet : alphabet.Nodup) (b : β) :
    (s.fresh (nextUnder alphabet move keep) b).Pairwise fun c d =>
      place alphabet (nameFresh alphabet move s name b c) <
        place alphabet (nameFresh alphabet move s name b d) := by
  have htraced := pairwise_eraseDups_filter_map (pairwise_idxOf_lt halphabet) (f := move b)
    fun c => decide (c ∉ s.expanded ∧ c ∉ s.queue) && keep c
  rw [← List.filter_filter] at htraced
  refine htraced.imp_of_mem fun {c d} hc hd hcd => ?_
  obtain ⟨a, ha, -, hname⟩ := nameFresh_of_fresh name hc
  obtain ⟨a', ha', -, hname'⟩ := nameFresh_of_fresh name hd
  rw [hname, hname']
  exact place_concat_lt_of_symbol (hcd a a' ha ha') _

theorem Named.ascending_step (named : Named alphabet move keep seed s name)
    (halphabet : alphabet.Nodup) {b : β} {queue : List β} (hqueue : s.queue = b :: queue) :
    (s.step (nextUnder alphabet move keep)).found.Pairwise fun c d =>
      place alphabet (nameFresh alphabet move s name b c) <
        place alphabet (nameFresh alphabet move s name b d) := by
  rw [found_step hqueue, List.pairwise_append]
  refine ⟨?_, pairwise_fresh halphabet b, fun c hc d hd => ?_⟩
  · refine named.ascending.imp_of_mem fun {c d} hc hd hlt => ?_
    rwa [nameFresh_of_found hc, nameFresh_of_found hd]
  · obtain ⟨a, -, -, hname⟩ := nameFresh_of_fresh name hd
    rw [nameFresh_of_found hc, hname]
    exact named.name_lt_concat hqueue hc a

theorem Named.first_step (named : Named alphabet move keep seed s name)
    (inv : Invariant (nextUnder alphabet move keep) [seed] s) (halphabet : alphabet.Nodup)
    {b : β} {queue : List β} (hqueue : s.queue = b :: queue) {c : β}
    (hc : c = b ∨ c ∈ s.expanded) {a : α} (ha : a ∈ alphabet) (hkeep : keep (move c a)) :
    place alphabet (nameFresh alphabet move s name b (move c a)) ≤
      place alphabet (name c ++ [a]) := by
  by_cases hknown : move c a ∈ s.found
  · rw [nameFresh_of_found hknown]
    rcases hc with rfl | hc
    · exact (named.name_lt_concat hqueue hknown a).le
    · exact named.first c hc a ha hkeep
  · rcases hc with rfl | hc
    · obtain ⟨a', hfirst, -⟩ := exists_find?_map (f := move c) ha
      rw [nameFresh_of_not_found hknown hfirst]
      rcases eq_or_rel_of_find? (pairwise_idxOf_lt halphabet) ha hfirst with rfl | hlt
      · exact le_refl _
      · exact (place_concat_lt_of_symbol hlt _).le
    · exact absurd (inv.expanded_closed c hc _ (mem_nextUnder.2 ⟨a, ha, rfl, hkeep⟩)) hknown

theorem named_start (alphabet : List α) (move : β → α → β) (keep : β → Bool) (seed : β) :
    Named alphabet move keep seed (start [seed]) fun _ => [] where
  name_seed := rfl
  leads c hc := by
    have hseed : c = seed := by simpa [start, mem_found] using hc
    exact hseed.symm
  ascending := by simp [start, found, List.eraseDups_cons]
  grown c hc := .inl rfl
  first b hb := by simp [start] at hb

theorem Named.step (named : Named alphabet move keep seed s name)
    (inv : Invariant (nextUnder alphabet move keep) [seed] s) (halphabet : alphabet.Nodup)
    {b : β} {queue : List β} (hqueue : s.queue = b :: queue) :
    Named alphabet move keep seed (s.step (nextUnder alphabet move keep))
      (nameFresh alphabet move s name b) := by
  have hfound : (s.step (nextUnder alphabet move keep)).found =
      s.found ++ s.fresh (nextUnder alphabet move keep) b := found_step hqueue
  have hexpanded : (s.step (nextUnder alphabet move keep)).expanded = b :: s.expanded := by
    simp [Search.step, hqueue]
  have hb : b ∈ s.found := by simp [mem_found, hqueue]
  constructor
  · rw [nameFresh_of_found (inv.seeds_found seed (List.mem_singleton.2 rfl)), named.name_seed]
  · intro c hc
    rw [hfound, List.mem_append] at hc
    rcases hc with hc | hc
    · rw [nameFresh_of_found hc, named.leads c hc]
    · obtain ⟨a, -, hmove, hname⟩ := nameFresh_of_fresh name hc
      rw [hname, List.foldl_append, named.leads b hb]
      exact hmove
  · exact named.ascending_step halphabet hqueue
  · intro c hc
    rw [hfound, List.mem_append] at hc
    rw [hexpanded]
    rcases hc with hc | hc
    · rw [nameFresh_of_found hc]
      refine (named.grown c hc).imp_right ?_
      rintro ⟨d, hd, a, hgrown⟩
      refine ⟨d, List.mem_cons_of_mem b hd, a, ?_⟩
      rw [nameFresh_of_found (mem_found.2 (.inl hd)), hgrown]
    · obtain ⟨a, -, -, hname⟩ := nameFresh_of_fresh name hc
      exact .inr ⟨b, List.mem_cons_self, a, by rw [hname, nameFresh_of_found hb]⟩
  · intro c hc a ha hkeep
    rw [hexpanded, List.mem_cons] at hc
    have hcfound : c ∈ s.found := hc.elim (fun h => h ▸ hb) fun h => mem_found.2 (.inl h)
    rw [nameFresh_of_found hcfound]
    exact named.first_step inv halphabet hqueue hc ha hkeep

theorem Named.run (named : Named alphabet move keep seed s name)
    (inv : Invariant (nextUnder alphabet move keep) [seed] s) (halphabet : alphabet.Nodup)
    (limit : Nat) :
    ∃ name', Named alphabet move keep seed (s.run (nextUnder alphabet move keep) limit) name' := by
  induction limit generalizing s name with
  | zero => exact ⟨name, named⟩
  | succ limit ih =>
      rw [Search.run]
      cases hqueue : s.queue with
      | nil => exact ⟨name, named⟩
      | cons b queue => exact ih (named.step inv halphabet hqueue) inv.step

/--
A search lists what it reaches in the order of the first words that lead there.  What leads to
something worth keeping must itself be worth keeping.
-/
theorem exists_first_words {count : Nat} (halphabet : alphabet.Nodup)
    (bounded : Bounded (nextUnder alphabet move keep) [seed] count)
    (hkeep : ∀ b a, keep (move b a) → keep b) :
    ∃ name : β → List α,
      (reach (nextUnder alphabet move keep) count [seed]).Pairwise
        (fun b c => place alphabet (name b) < place alphabet (name c)) ∧
      (∀ c ∈ reach (nextUnder alphabet move keep) count [seed],
        (name c).foldl move seed = c) ∧
      ∀ word : List α, (∀ a ∈ word, a ∈ alphabet) → keep (word.foldl move seed) →
        place alphabet (name (word.foldl move seed)) ≤ place alphabet word := by
  obtain ⟨name, named⟩ :=
    (named_start alphabet move keep seed).run (invariant_start _ _) halphabet count
  have hfound := reach_eq_found bounded
  refine ⟨name, ?_, ?_, ?_⟩
  · rw [hfound]
    exact named.ascending
  · intro c hc
    rw [hfound] at hc
    exact named.leads c hc
  · intro word hword hkept
    -- By induction on the word from its end, with what keeps the search from missing the item.
    suffices hreached : word.foldl move seed ∈
        reach (nextUnder alphabet move keep) count [seed] ∧
          place alphabet (name (word.foldl move seed)) ≤ place alphabet word from hreached.2
    induction word using List.reverseRecOn with
    | nil =>
        refine ⟨(mem_reach bounded).2 (.seed (List.mem_singleton.2 rfl)), ?_⟩
        rw [List.foldl_nil, named.name_seed]
    | append_singleton word a ih =>
        rw [List.foldl_append] at hkept ⊢
        obtain ⟨hbefore, ha⟩ := List.forall_mem_append.1 hword
        have ha := ha a (List.mem_singleton.2 rfl)
        obtain ⟨hreached, hle⟩ := ih hbefore (hkeep _ a hkept)
        have hexpanded := mem_found.1 (hfound ▸ hreached)
        rw [queue_run_start_eq_nil bounded] at hexpanded
        have hexpanded := hexpanded.resolve_right List.not_mem_nil
        constructor
        · exact (mem_reach bounded).2
            (.next ((mem_reach bounded).1 hreached) (mem_nextUnder.2 ⟨a, ha, rfl, hkept⟩))
        · exact (named.first _ hexpanded a ha hkept).trans (place_concat_le_concat hle a)

end Search

end Acceptors
