import Mathlib.Data.List.Lex
import Mathlib.Data.Prod.Lex

/-!
# Shortlex order of words

A word comes before another if it is shorter, or if it is as long and has the earlier symbol where
the two first differ.  The order is read off a key, the length of a word and the positions of its
symbols in the alphabet, so that it is linear without further proof.
-/

namespace Acceptors

variable {α : Type} [DecidableEq α] {alphabet : List α}

/-- The place of a word in the order: its length, and the positions of its symbols. -/
def place (alphabet : List α) (word : List α) : ℕ ×ₗ List ℕ :=
  toLex (word.length, word.map fun a => alphabet.idxOf a)

theorem place_lt_iff {v w : List α} :
    place alphabet v < place alphabet w ↔
      v.length < w.length ∨ v.length = w.length ∧
        (v.map fun a => alphabet.idxOf a) < w.map fun a => alphabet.idxOf a :=
  Prod.Lex.toLex_lt_toLex

theorem place_injOn {v w : List α} (hv : ∀ a ∈ v, a ∈ alphabet)
    (h : place alphabet v = place alphabet w) : v = w := by
  obtain ⟨-, hpositions⟩ := Prod.ext_iff.1 (toLex.injective h)
  clear h
  simp only at hpositions
  induction v generalizing w with
  | nil => simpa using hpositions.symm
  | cons a v ih =>
      cases w with
      | nil => simp at hpositions
      | cons b w =>
          obtain ⟨hfirst, hrest⟩ := List.cons_eq_cons.1 hpositions
          have hab := (List.idxOf_inj (hv a List.mem_cons_self)).1 hfirst
          rw [hab, ih (fun c hc => hv c (List.mem_cons_of_mem a hc)) hrest]

theorem place_nil_lt_concat (v : List α) (a : α) :
    place alphabet [] < place alphabet (v ++ [a]) :=
  place_lt_iff.2 (.inl (by simp))

theorem place_concat_lt_concat {v w : List α} (h : place alphabet v < place alphabet w) (a b : α) :
    place alphabet (v ++ [a]) < place alphabet (w ++ [b]) := by
  rw [place_lt_iff] at h ⊢
  simp only [List.length_append, List.length_singleton, List.map_append]
  rcases h with hlength | ⟨hlength, hpositions⟩
  · exact .inl (Nat.succ_lt_succ hlength)
  · refine .inr ⟨congrArg (· + 1) hlength, ?_⟩
    induction v generalizing w with
    | nil =>
        cases List.length_eq_zero_iff.1 hlength.symm
        simp at hpositions
    | cons c v ih =>
        obtain ⟨d, w, rfl⟩ := List.exists_cons_of_length_eq_add_one hlength.symm
        simp only [List.map_cons, List.cons_append, List.cons_lt_cons_iff] at hpositions ⊢
        rcases hpositions with hfirst | ⟨hfirst, hrest⟩
        · exact .inl hfirst
        · exact .inr ⟨hfirst, ih (Nat.succ.inj hlength) hrest⟩

theorem place_concat_lt_of_symbol {a b : α} (h : alphabet.idxOf a < alphabet.idxOf b)
    (w : List α) : place alphabet (w ++ [a]) < place alphabet (w ++ [b]) := by
  refine place_lt_iff.2 (.inr ⟨by simp, ?_⟩)
  simp only [List.map_append, List.map_singleton]
  exact List.append_left_lt (List.cons_lt_cons_iff.2 (.inl h))

theorem place_lt_of_length_lt {v w : List α} (h : v.length < w.length) :
    place alphabet v < place alphabet w :=
  place_lt_iff.2 (.inl h)

theorem place_cons_lt_cons {v w : List α} (h : place alphabet v < place alphabet w) (a : α) :
    place alphabet (a :: v) < place alphabet (a :: w) := by
  rw [place_lt_iff] at h ⊢
  simp only [List.length_cons, List.map_cons]
  rcases h with hlength | ⟨hlength, hpositions⟩
  · exact .inl (Nat.succ_lt_succ hlength)
  · exact .inr ⟨congrArg (· + 1) hlength, List.cons_lt_cons_iff.2 (.inr ⟨rfl, hpositions⟩)⟩

theorem place_cons_lt_of_symbol {a b : α} (h : alphabet.idxOf a < alphabet.idxOf b)
    {v w : List α} (hlength : v.length = w.length) :
    place alphabet (a :: v) < place alphabet (b :: w) := by
  refine place_lt_iff.2 (.inr ⟨congrArg (· + 1) hlength, ?_⟩)
  simp only [List.map_cons]
  exact List.cons_lt_cons_iff.2 (.inl h)

theorem place_concat_le_concat {v w : List α} (h : place alphabet v ≤ place alphabet w) (a : α) :
    place alphabet (v ++ [a]) ≤ place alphabet (w ++ [a]) := by
  rcases h.lt_or_eq with hlt | heq
  · exact (place_concat_lt_concat hlt a a).le
  · obtain ⟨hlength, hpositions⟩ := Prod.ext_iff.1 (toLex.injective heq)
    refine le_of_eq (congrArg toLex (Prod.ext ?_ ?_))
    · simpa using hlength
    · simpa using hpositions

theorem pairwise_idxOf_lt (h : alphabet.Nodup) :
    alphabet.Pairwise fun a b => alphabet.idxOf a < alphabet.idxOf b := by
  refine List.pairwise_iff_getElem.2 fun i j hi hj hij => ?_
  rwa [h.idxOf_getElem i hi, h.idxOf_getElem j hj]

end Acceptors
