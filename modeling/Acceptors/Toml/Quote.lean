import Acceptors.Toml.Lexical

/-!
# Written strings of TOML

A string is written in the plainest form that holds it.  Double quotes are preferred to single ones
and one line to several; escapes are used only where no form holds the string without them.
-/

namespace Acceptors.Toml

/-- A control character that no form of string can hold without an escape. -/
def needsEscape (c : Char) : Bool :=
  (c.toNat < 0x20 && c != '\t' && c != '\n') || c.toNat == 0x7F

/-- The longest run of a character, if `current` of them come right before and `best` is known. -/
def longestRunFrom (q : Char) (current best : Nat) : List Char → Nat
  | [] => best
  | c :: cs =>
      if c = q then longestRunFrom q (current + 1) (max best (current + 1)) cs
      else longestRunFrom q 0 best cs

def longestRun (q : Char) (cs : List Char) : Nat := longestRunFrom q 0 0 cs

/-- The forms of a string: with or without escapes, on one line or on several. -/
inductive Form where
  | basic
  | literal
  | basicLines
  | literalLines
deriving DecidableEq, Repr

def Form.of (cs : List Char) : Form :=
  let control := cs.any needsEscape
  let backslash := cs.contains '\\'
  let lines := cs.contains '\n'
  let doubles := longestRun '"' cs
  let singles := longestRun '\'' cs
  if !control && !backslash && !lines && doubles = 0 then .basic
  else if !control && !lines && singles = 0 then .literal
  else if !control && !backslash && doubles ≤ 2 then .basicLines
  else if !control && singles ≤ 2 then .literalLines
  else if lines then .basicLines
  else .basic

def hexDigit (n : Nat) : Char := "0123456789ABCDEF".toList.getD n '0'

/-- A character other than a double quote, as it is written where escapes are allowed. -/
def escapeChar (lines : Bool) (c : Char) : List Char :=
  if c = '\x08' then ['\\', 'b']
  else if c = '\t' then ['\\', 't']
  else if c = '\n' then (if lines then ['\n'] else ['\\', 'n'])
  else if c = '\x0c' then ['\\', 'f']
  else if c = '\r' then ['\\', 'r']
  else if c = '\\' then ['\\', '\\']
  else if needsEscape c then
    ['\\', 'u', '0', '0', hexDigit (c.toNat / 16), hexDigit (c.toNat % 16)]
  else [c]

/--
A string between double quotes.  On several lines two quotes in a row may stand as they are;
`quotes` of them come right before.
-/
def escape (lines : Bool) (quotes : Nat) : List Char → List Char
  | [] => []
  | c :: cs =>
      if c = '"' then
        if lines && decide (quotes < 2) then '"' :: escape lines (quotes + 1) cs
        else '\\' :: '"' :: escape lines 0 cs
      else
        escapeChar lines c ++ escape lines 0 cs

/-- Text between quotes on several lines begins on a line of its own if it has a line break. -/
def opening (cs : List Char) : List Char := if cs.contains '\n' then ['\n'] else []

def quote (cs : List Char) : List Char :=
  match Form.of cs with
  | .basic => ['"'] ++ escape false 0 cs ++ ['"']
  | .literal => ['\''] ++ cs ++ ['\'']
  | .basicLines => ['"', '"', '"'] ++ opening cs ++ escape true 0 cs ++ ['"', '"', '"']
  | .literalLines => ['\'', '\'', '\''] ++ opening cs ++ cs ++ ['\'', '\'', '\'']

end Acceptors.Toml
