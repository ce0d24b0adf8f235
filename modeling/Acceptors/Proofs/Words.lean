import Acceptors.Proofs.Shortlex
import Acceptors.Words
import Mathlib.Data.List.Induction
import Mathlib.Data.List.Nodup

/-!
# Words and where they lead

The enumeration lists the words over an alphabet up to a length, in shortlex order.  A machine that
words lead to at most `count` states is led to each of them by a word of fewer than `count` symbols:
a longer word comes to some state twice, and what it reads in between can be left out.
-/

namespace Acceptors

variable {α : Type} {alphabet : List α}

theorem mem_wordsOfLength {n : Nat} {word : List α} :
    word ∈ wordsOfLength alphabet n ↔ word.length = n ∧ ∀ a ∈ word, a ∈ alphabet := by
  induction n generalizing word with
  | zero =>
      rw [wordsOfLength, List.mem_singleton, List.length_eq_zero_iff]
      constructor
      · rintro rfl
        simp
      · exact fun h => h.1
  | succ n ih =>
      simp only [wordsOfLength, List.mem_flatMap, List.mem_map, ih]
      constructor
      · rintro ⟨a, ha, word, ⟨rfl, hword⟩, rfl⟩
        exact ⟨rfl, List.forall_mem_cons.2 ⟨ha, hword⟩⟩
      · rintro ⟨hlength, hword⟩
        obtain ⟨a, word, rfl⟩ := List.exists_cons_of_length_eq_add_one hlength
        obtain ⟨ha, hword⟩ := List.forall_mem_cons.1 hword
        exact ⟨a, ha, word, ⟨Nat.succ.inj hlength, hword⟩, rfl⟩

theorem mem_wordsUpTo {n : Nat} {word : List α} :
    word ∈ wordsUpTo alphabet n ↔ word.length ≤ n ∧ ∀ a ∈ word, a ∈ alphabet := by
  simp only [wordsUpTo, List.mem_flatMap, List.mem_range, mem_wordsOfLength]
  constructor
  · rintro ⟨m, hm, rfl, hword⟩
    exact ⟨Nat.le_of_lt_succ hm, hword⟩
  · rintro ⟨hlength, hword⟩
    exact ⟨word.length, Nat.lt_succ_of_le hlength, rfl, hword⟩

section Order

variable [DecidableEq α]

theorem pairwise_wordsOfLength (halphabet : alphabet.Nodup) (n : Nat) :
    (wordsOfLength alphabet n).Pairwise fun v w => place alphabet v < place alphabet w := by
  induction n with
  | zero => exact List.pairwise_singleton _ _
  | succ n ih =>
      rw [wordsOfLength, List.pairwise_flatMap]
      constructor
      · intro a _
        exact List.pairwise_map.2 (ih.imp fun hlt => place_cons_lt_cons hlt a)
      · refine (pairwise_idxOf_lt halphabet).imp fun hlt av hav bw hbw => ?_
        obtain ⟨v, hv, rfl⟩ := List.mem_map.1 hav
        obtain ⟨w, hw, rfl⟩ := List.mem_map.1 hbw
        have hlength : v.length = w.length :=
          (mem_wordsOfLength.1 hv).1.trans (mem_wordsOfLength.1 hw).1.symm
        exact place_cons_lt_of_symbol hlt hlength

theorem pairwise_wordsUpTo (halphabet : alphabet.Nodup) (n : Nat) :
    (wordsUpTo alphabet n).Pairwise fun v w => place alphabet v < place alphabet w := by
  rw [wordsUpTo, List.pairwise_flatMap]
  constructor
  · exact fun m _ => pairwise_wordsOfLength halphabet m
  · refine List.pairwise_lt_range.imp fun hlt v hv w hw => place_lt_of_length_lt ?_
    rwa [(mem_wordsOfLength.1 hv).1, (mem_wordsOfLength.1 hw).1]

end Order

section Machine

variable {σ : Type} {next : σ → α → σ} {s : σ}

theorem foldl_take_append_drop {word : List α} {m n : Nat}
    (h : (word.take m).foldl next s = (word.take n).foldl next s) :
    (word.take m ++ word.drop n).foldl next s = word.foldl next s := by
  rw [List.foldl_append, h, ← List.foldl_append, List.take_append_drop]

/-- Words over the alphabet lead from `s` to at most this many states. -/
def LeadsToAtMost (alphabet : List α) (next : σ → α → σ) (s : σ) (count : Nat) : Prop :=
  ∀ states : List σ, states.Nodup →
    (∀ t ∈ states, ∃ word : List α, (∀ a ∈ word, a ∈ alphabet) ∧ word.foldl next s = t) →
      states.length ≤ count

theorem exists_repeated_state {count : Nat} (bounded : LeadsToAtMost alphabet next s count)
    {word : List α} (hword : ∀ a ∈ word, a ∈ alphabet) (hlong : count ≤ word.length) :
    ∃ m n, m < n ∧ n ≤ word.length ∧
      (word.take m).foldl next s = (word.take n).foldl next s := by
  have hrepeated : ¬ ((List.range (word.length + 1)).map fun n =>
      (word.take n).foldl next s).Nodup := by
    intro hnodup
    have hle := bounded _ hnodup fun t ht => by
      obtain ⟨n, -, rfl⟩ := List.mem_map.1 ht
      exact ⟨word.take n, fun a ha => hword a (List.mem_of_mem_take ha), rfl⟩
    simp at hle
    omega
  rw [List.nodup_map_iff_inj_on List.nodup_range] at hrepeated
  simp only [not_forall, exists_prop] at hrepeated
  obtain ⟨m, hm, n, hn, heq, hne⟩ := hrepeated
  rw [List.mem_range] at hm hn
  rcases Nat.lt_or_gt_of_ne hne with hlt | hlt
  · exact ⟨m, n, hlt, by omega, heq⟩
  · exact ⟨n, m, hlt, by omega, heq.symm⟩

theorem exists_short_word {count : Nat} (bounded : LeadsToAtMost alphabet next s count)
    {word : List α} (hword : ∀ a ∈ word, a ∈ alphabet) :
    ∃ short : List α, (∀ a ∈ short, a ∈ alphabet) ∧ short.length < count ∧
      short.foldl next s = word.foldl next s := by
  induction hlength : word.length using Nat.strongRecOn generalizing word with
  | ind length ih =>
      by_cases hshort : word.length < count
      · exact ⟨word, hword, hshort, rfl⟩
      · -- What is read between two visits of one state is left out.
        obtain ⟨m, n, hmn, hn, heq⟩ := exists_repeated_state bounded hword (by omega)
        have hcut : ∀ a ∈ word.take m ++ word.drop n, a ∈ alphabet := by
          refine List.forall_mem_append.2 ⟨fun a ha => ?_, fun a ha => ?_⟩
          · exact hword a (List.mem_of_mem_take ha)
          · exact hword a (List.mem_of_mem_drop ha)
        have hshorter : (word.take m ++ word.drop n).length < length := by
          simp
          omega
        obtain ⟨short, hover, hlt, hsame⟩ := ih _ hshorter hcut rfl
        exact ⟨short, hover, hlt, hsame.trans (foldl_take_append_drop heq)⟩

end Machine

end Acceptors
