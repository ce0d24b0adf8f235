import Acceptors.Toml.Lexical

/-!
# Strings of TOML

A string stands between quotes, one on each side or three if it spans lines.  Double quotes permit
escapes and single quotes do not.  A string is read in two steps: first the raw text up to the
closing quotes, in which an escaped quote does not close, and then the characters that the raw text
stands for.
-/

namespace Acceptors.Toml

def withFront (front : List Char) : List Char × List Char → List Char × List Char
  | (body, rest) => (front ++ body, rest)

def untilQuote (quote : Char) (escapes : Bool) : Reader (List Char)
  | [] => none
  | [c] => if c = quote then some ([], []) else none
  | c :: d :: cs =>
      if c = quote then
        some ([], d :: cs)
      else if escapes ∧ c = '\\' then
        (untilQuote quote escapes cs).map (withFront [c, d])
      else
        (untilQuote quote escapes (d :: cs)).map (withFront [c])

/--
The raw text up to three closing quotes.  One or two more quotes before these belong to the text.
-/
def untilQuotes (quote : Char) (escapes : Bool) : Reader (List Char)
  | [] => none
  | [_] => none
  | c :: d :: cs =>
      if c = quote ∧ (d :: cs).take 2 = [quote, quote] then
        let extra := ((cs.drop 1).takeWhile (· == quote)).take 2
        some (extra, cs.drop (1 + extra.length))
      else if escapes ∧ c = '\\' then
        (untilQuotes quote escapes cs).map (withFront [c, d])
      else
        (untilQuotes quote escapes (d :: cs)).map (withFront [c])

def hexValue? (c : Char) : Option Nat :=
  if '0' ≤ c ∧ c ≤ '9' then some (c.toNat - '0'.toNat)
  else if 'a' ≤ c ∧ c ≤ 'f' then some (c.toNat - 'a'.toNat + 10)
  else if 'A' ≤ c ∧ c ≤ 'F' then some (c.toNat - 'A'.toNat + 10)
  else none

/-- The number that hexadecimal digits write, the most significant one first. -/
def hexNumber? (digits : List Char) : Option Nat :=
  digits.foldlM (fun n c => (hexValue? c).map (16 * n + ·)) 0

/-- The character with a code point written in a fixed number of hexadecimal digits. -/
def codePoint (length : Nat) : Reader Char := fun cs => do
  let n ← hexNumber? (cs.take length)
  if (cs.take length).length = length ∧ n.isValidChar then
    return (Char.ofNat n, cs.drop length)
  else
    none

/-- The character that an escape stands for, read after the backslash. -/
def escaped : Reader Char
  | 'b' :: cs => some ('\x08', cs)
  | 't' :: cs => some ('\t', cs)
  | 'n' :: cs => some ('\n', cs)
  | 'f' :: cs => some ('\x0c', cs)
  | 'r' :: cs => some ('\r', cs)
  | '"' :: cs => some ('"', cs)
  | '\\' :: cs => some ('\\', cs)
  | 'u' :: cs => codePoint 4 cs
  | 'U' :: cs => codePoint 8 cs
  | _ => none

def skipSpace (cs : List Char) : List Char :=
  match _h : newline? cs with
  | some rest => skipSpace rest
  | none =>
      match cs with
      | [] => []
      | c :: cs => if isBlank c then skipSpace cs else c :: cs
termination_by cs.length
decreasing_by
  · exact length_newline?_lt (by assumption)
  · exact Nat.lt_succ_self _

/-- The characters that the front of a raw text stands for.  A text of lines may contain breaks. -/
def rawPiece (escapes lines : Bool) : Reader (List Char)
  | [] => none
  | c :: cs =>
      if escapes ∧ c = '\\' then
        match lines, newline? (skipBlanks cs) with
        | true, some rest => some ([], skipSpace rest)
        | _, _ => (escaped cs).map fun (c, rest) => ([c], rest)
      else if isText c then
        some ([c], cs)
      else if lines then
        (newline? (c :: cs)).map (['\n'], ·)
      else
        none

def meaning (escapes lines : Bool) (raw : List Char) : Option String :=
  (readAll (rawPiece escapes lines) raw).map fun pieces => String.ofList pieces.flatten

/-- A string on one line, read after the opening quote. -/
def lineString (quote : Char) (escapes : Bool) : Reader String := fun cs => do
  let (raw, rest) ← untilQuote quote escapes cs
  return (← meaning escapes false raw, rest)

/-- A string of lines, read after the opening quotes.  A line break right after these is skipped. -/
def linesString (quote : Char) (escapes : Bool) : Reader String := fun cs => do
  let (raw, rest) ← untilQuotes quote escapes ((newline? cs).getD cs)
  return (← meaning escapes true raw, rest)

def string : Reader String
  | '"' :: '"' :: '"' :: cs => linesString '"' true cs
  | '\'' :: '\'' :: '\'' :: cs => linesString '\'' false cs
  | '"' :: cs => lineString '"' true cs
  | '\'' :: cs => lineString '\'' false cs
  | _ => none

end Acceptors.Toml
