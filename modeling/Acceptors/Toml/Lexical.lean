/-!
# Characters, blanks and line ends of TOML

A reader takes something off the front of a text and gives the rest back.  The readers here are the
ones that all others are made of.
-/

namespace Acceptors.Toml

abbrev Reader (α : Type) := List Char → Option (α × List Char)

def isBlank (c : Char) : Bool := c == ' ' || c == '\t'

/-- What may stand in a comment or between quotes on one line: no control character but a tab. -/
def isText (c : Char) : Bool := c == '\t' || (0x20 ≤ c.toNat && c.toNat != 0x7F)

def skipBlanks (cs : List Char) : List Char := cs.dropWhile isBlank

def newline? : List Char → Option (List Char)
  | '\n' :: cs => some cs
  | '\r' :: '\n' :: cs => some cs
  | _ => none

/-- The text after a comment, if one begins here. -/
def skipComment : List Char → List Char
  | '#' :: cs => cs.dropWhile isText
  | cs => cs

/-- The text after the end of a line: blanks, perhaps a comment, and a line break or the end. -/
def lineEnd? (cs : List Char) : Option (List Char) :=
  match skipComment (skipBlanks cs) with
  | [] => some []
  | cs => newline? cs

theorem length_newline?_lt {cs rest : List Char} (h : newline? cs = some rest) :
    rest.length < cs.length := by
  unfold newline? at h
  split at h
  · cases h
    exact Nat.lt_succ_self _
  · cases h
    simp only [List.length_cons]
    omega
  · cases h

def skipGap (cs : List Char) : List Char :=
  match _h : newline? cs with
  | some rest => skipGap rest
  | none =>
      match cs with
      | [] => []
      | c :: cs =>
          if isBlank c then skipGap cs
          else if c = '#' then skipGap (cs.dropWhile isText)
          else c :: cs
termination_by cs.length
decreasing_by
  · exact length_newline?_lt (by assumption)
  · exact Nat.lt_succ_self _
  · exact Nat.lt_succ_of_le (List.dropWhile_sublist isText).length_le

/-- Reads at most `limit` items up to the end of a text. -/
def readAllWithin {α : Type} (item : Reader α) : Nat → List Char → Option (List α)
  | _, [] => some []
  | 0, _ :: _ => none
  | limit + 1, cs => do
      let (a, rest) ← item cs
      return a :: (← readAllWithin item limit rest)

/--
Reads items up to the end of a text.  There are no more of them than characters, since an item that
takes nothing off the text would be read forever.
-/
def readAll {α : Type} (item : Reader α) (cs : List Char) : Option (List α) :=
  readAllWithin item cs.length cs

/-- Reads at most `limit` items as `readItems` does. -/
def readItemsWithin {α : Type} (skip : List Char → List Char) (close : Char) (trailing : Bool)
    (item : Reader α) : Nat → List Char → Option (List α × List Char)
  | 0, _ => none
  | limit + 1, cs => do
      let (a, rest) ← item (skip cs)
      match skip rest with
      | [] => none
      | c :: rest =>
          if c = close then
            return ([a], rest)
          else if c = ',' then
            if trailing ∧ (skip rest).head? = some close then
              return ([a], (skip rest).tail)
            else
              let (as, rest) ← readItemsWithin skip close trailing item limit rest
              return (a :: as, rest)
          else
            none

/--
Reads items with commas between them up to a closing character.  `skip` passes over what may stand
around an item, and `trailing` permits a comma after the last one.  There are no more items than
characters.
-/
def readItems {α : Type} (skip : List Char → List Char) (close : Char) (trailing : Bool)
    (item : Reader α) (cs : List Char) : Option (List α × List Char) :=
  readItemsWithin skip close trailing item cs.length cs

end Acceptors.Toml
