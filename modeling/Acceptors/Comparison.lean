import Acceptors.Words

/-!
# Comparison of languages

Two automata are compared on all words of bounded length over the alphabet of the first.
-/

namespace Acceptors

namespace Automaton

variable {α : Type} [DecidableEq α]

/-- The alphabets hold the same symbols, in whatever order. -/
def sameAlphabet (A B : Automaton α) : Bool := A.alphabet.isPerm B.alphabet

/-- The first word, over the alphabet of `A`, that one of the two accepts and the other does not. -/
def findDifference (A B : Automaton α) (maxLength : Nat) :
    Except (Refusal α) (Option (List α)) := do
  let p ← A.initial
  let q ← B.initial
  let m := A.moves
  let k := B.moves
  let next := fun (s, t) a => (m.advance s a, k.advance t a)
  let differ := fun (s, t) => A.containsAccepting s != B.containsAccepting t
  let start := (m.closure [p], k.closure [q])
  return firstAnswer? (fun n => wordTo? A.alphabet next differ n start) 0 (maxLength + 1)

/-- The alphabets are the same and no word of length at most `maxLength` tells the two apart. -/
def sameLanguage (A B : Automaton α) (maxLength : Nat) : Except (Refusal α) Bool :=
  if A.sameAlphabet B then do
    return (← A.findDifference B maxLength).isNone
  else
    .ok false

end Automaton

inductive Side where
  | a
  | b
deriving DecidableEq, Repr

namespace Side

def text : Side → String
  | a => "a"
  | b => "b"

def other : Side → Side
  | a => b
  | b => a

/-- The side of the one that accepts, if the other one does not. -/
def alone? (inA inB : Bool) : Option Side :=
  match inA, inB with
  | true, false => some a
  | false, true => some b
  | _, _ => none

end Side

inductive Mismatch (α : Type) where
  | alphabets
  | noStartState (side : Side)
  | word (word : List α) (acceptedBy : Side)
deriving DecidableEq, Repr

def Mismatch.message {α : Type} [Letter α] : Mismatch α → String
  | alphabets => "Alphabets are not the same"
  | noStartState side =>
      "automaton `" ++ side.text ++ "` must have a start state: NoStartState"
  | word w side =>
      quoteWord w ++ " is accepted by automaton `" ++ side.text ++
        "` but not by automaton `" ++ side.other.text ++
        "`. Thus their languages are not equal."

/-- Goes through the words of `A` itself, and says of the first difference who accepts it. -/
def assertSameLanguage {α : Type} [DecidableEq α] (A B : Automaton α) (maxLength : Nat) :
    Except (Mismatch α) Unit :=
  if A.sameAlphabet B then
    match A.start, B.start with
    | none, _ => .error (.noStartState .a)
    | some _, none => .error (.noStartState .b)
    | some p, some q =>
        let m := A.moves
        let k := B.moves
        let next := fun (s, t) a => (m.advance s a, k.advance t a)
        let judge := fun (s, t) => Side.alone? (A.containsAccepting s) (B.containsAccepting t)
        let start := (m.closure [p], k.closure [q])
        match firstAnswer? (fun n => judgedWord? A.alphabet next judge n start) 0
            (maxLength + 1) with
        | some (w, side) => .error (.word w side)
        | none => .ok ()
  else
    .error .alphabets

end Acceptors
