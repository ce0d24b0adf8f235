import Acceptors.Text.Quoted

/-!
# Input symbols

Any type with decidable equality can serve as the alphabet of an automaton.  `Letter` adds what
comparisons and messages need, an order on the symbols and a written form that tells them apart, and
how much room a symbol takes.
-/

namespace Acceptors

/-- Symbols that can be compared and quoted. -/
class Letter (α : Type) extends Ord α where
  quote : α → String
  /-- The bytes that a symbol takes in a word. -/
  width : Nat

instance : Letter Char where
  quote c := Text.quoted '\'' [c]
  width := 4

/-- A word holds the place, the length and the room of a text, which is kept elsewhere. -/
instance : Letter String where
  quote s := Text.quoted '"' s.toList
  width := 24

instance : Letter UInt8 where
  quote n := toString n.toNat
  width := 1

instance : Letter Int64 where
  quote n := toString n.toInt
  width := 8

variable {α : Type} [Letter α]

def quoteWord (word : List α) : String :=
  "[" ++ ", ".intercalate (word.map Letter.quote) ++ "]"

end Acceptors
