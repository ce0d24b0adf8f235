import Std.Data.TreeMap

/-!
# Positions in a list

A table of the positions of all items of a list, for a list that is asked often.  It answers as a
search of the list does, by `getElem?_positions`: with the first position of a repeated item.
-/

namespace Acceptors

variable {β : Type} [Ord β]

def positions (items : List β) : Std.TreeMap β Nat :=
  items.zipIdx.foldr (fun (b, n) table => table.insert b n) ∅

variable [DecidableEq β] [Std.TransOrd β] [Std.LawfulEqOrd β]

theorem getElem?_foldr_insert (items : List β) (first : Nat) (b : β) :
    ((items.zipIdx first).foldr (fun (c, n) table => table.insert c n)
        (∅ : Std.TreeMap β Nat))[b]? = (items.idxOf? b).map (· + first) := by
  induction items generalizing first with
  | nil => simp
  | cons c items ih =>
      rw [List.zipIdx_cons, List.foldr_cons, Std.TreeMap.getElem?_insert, List.idxOf?_cons]
      by_cases hc : c = b
      · simp [hc]
      · rw [if_neg (by simpa using hc), if_neg (by simpa using hc), ih, Option.map_map]
        congr 1
        funext n
        exact Nat.add_right_comm n first 1

theorem getElem?_positions (items : List β) (b : β) :
    (positions items)[b]? = items.idxOf? b := by
  rw [positions, getElem?_foldr_insert]
  cases items.idxOf? b <;> rfl

end Acceptors
