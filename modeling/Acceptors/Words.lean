import Acceptors.Simulation

/-!
# Words over an alphabet

Words are enumerated by length, and within one length in the order of the alphabet, read from left
to right.  `wordsTo` and `wordTo?` look for the words that take a state of some machine to a place
with a property, and `judgedWord?` for the first one that a judge of places has something to say
about.  They carry the state along, so that a common beginning is read once, and
`wordsTo_eq_filter`, `wordTo?_eq_find?` and `judgedWord?_eq_findSome?` say that the enumeration is
the same.
-/

namespace Acceptors

def wordsOfLength {α : Type} (alphabet : List α) : Nat → List (List α)
  | 0 => [[]]
  | n + 1 => alphabet.flatMap fun a => (wordsOfLength alphabet n).map (a :: ·)

def wordsUpTo {α : Type} (alphabet : List α) (maxLength : Nat) : List (List α) :=
  (List.range (maxLength + 1)).flatMap (wordsOfLength alphabet)

section Machine

variable {α σ τ : Type}

/-- The words of one length that take `s` to a place with the property. -/
def wordsTo (alphabet : List α) (next : σ → α → σ) (p : σ → Bool) : Nat → σ → List (List α)
  | 0, s => if p s then [[]] else []
  | n + 1, s => alphabet.flatMap fun a =>
      (wordsTo alphabet next p n (next s a)).map (a :: ·)

/-- The first word of one length that takes `s` to a place with the property. -/
def wordTo? (alphabet : List α) (next : σ → α → σ) (p : σ → Bool) : Nat → σ → Option (List α)
  | 0, s => if p s then some [] else none
  | n + 1, s => alphabet.findSome? fun a =>
      (wordTo? alphabet next p n (next s a)).map (a :: ·)

/-- The first word of one length that takes `s` to a place with a verdict, and the verdict. -/
def judgedWord? (alphabet : List α) (next : σ → α → σ) (judge : σ → Option τ) :
    Nat → σ → Option (List α × τ)
  | 0, s => (judge s).map ([], ·)
  | n + 1, s => alphabet.findSome? fun a =>
      (judgedWord? alphabet next judge n (next s a)).map fun (word, verdict) => (a :: word, verdict)

theorem wordsTo_eq_filter (alphabet : List α) (next : σ → α → σ) (p : σ → Bool) (n : Nat)
    (s : σ) :
    wordsTo alphabet next p n s =
      (wordsOfLength alphabet n).filter fun word => p (word.foldl next s) := by
  induction n generalizing s with
  | zero => cases h : p s <;> simp [wordsTo, wordsOfLength, h]
  | succ n ih =>
      simp only [wordsTo, wordsOfLength, List.filter_flatMap, List.filter_map, ih]
      rfl

theorem wordTo?_eq_find? (alphabet : List α) (next : σ → α → σ) (p : σ → Bool) (n : Nat)
    (s : σ) :
    wordTo? alphabet next p n s =
      (wordsOfLength alphabet n).find? fun word => p (word.foldl next s) := by
  induction n generalizing s with
  | zero => cases h : p s <;> simp [wordTo?, wordsOfLength, h]
  | succ n ih =>
      simp only [wordTo?, wordsOfLength, List.find?_flatMap, List.find?_map, ih]
      rfl

theorem findSome?_flatMap {β γ : Type} (f : β → Option γ) (g : α → List β) (items : List α) :
    (items.flatMap g).findSome? f = items.findSome? fun a => (g a).findSome? f := by
  induction items with
  | nil => rfl
  | cons a items ih =>
      rw [List.flatMap_cons, List.findSome?_append, List.findSome?_cons, ih]
      cases (g a).findSome? f <;> rfl

theorem judgedWord?_eq_findSome? (alphabet : List α) (next : σ → α → σ) (judge : σ → Option τ)
    (n : Nat) (s : σ) :
    judgedWord? alphabet next judge n s =
      (wordsOfLength alphabet n).findSome? fun word =>
        (judge (word.foldl next s)).map (word, ·) := by
  induction n generalizing s with
  | zero => cases h : judge s <;> simp [judgedWord?, wordsOfLength, h]
  | succ n ih =>
      simp only [judgedWord?, wordsOfLength, findSome?_flatMap, List.findSome?_map, ih,
        List.map_findSome?]
      congr 1
      funext a
      congr 1
      funext word
      exact Option.map_map ..

end Machine

/-- The first answer of `f` among `count` numbers from `n` on. -/
def firstAnswer? {β : Type} (f : Nat → Option β) (n : Nat) : Nat → Option β
  | 0 => none
  | count + 1 =>
      match f n with
      | some b => some b
      | none => firstAnswer? f (n + 1) count

theorem firstAnswer?_eq_findSome? {β : Type} (f : Nat → Option β) (n count : Nat) :
    firstAnswer? f n count = (List.range' n count).findSome? f := by
  induction count generalizing n with
  | zero => rfl
  | succ count ih =>
      cases h : f n <;> simp [firstAnswer?, List.range'_succ, h, ih]

namespace Automaton

variable {α : Type} [DecidableEq α]

def words (A : Automaton α) (maxLength : Nat) : List (List α) :=
  wordsUpTo A.alphabet maxLength

def acceptedWords (A : Automaton α) (maxLength : Nat) :
    Except (Refusal α) (List (List α)) := do
  let start ← A.initial
  let m := A.moves
  return (List.range (maxLength + 1)).flatMap fun n =>
    wordsTo A.alphabet m.advance A.containsAccepting n (m.closure [start])

end Automaton

end Acceptors
