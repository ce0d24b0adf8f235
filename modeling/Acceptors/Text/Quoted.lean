import Acceptors.Text.Extending
import Acceptors.Text.Unprintable

/-!
# Quoted text

Characters and texts are quoted in messages so that each can be told apart: the delimiter, the
backslash and the common controls have a letter, and what has no visible form of its own is
written by its code point.
-/

namespace Acceptors.Text

/-- The code point in hexadecimal, in small letters and without leading zeros. -/
def byNumber (c : Char) : List Char :=
  ['\\', 'u', '\x7b'] ++ Nat.toDigits 16 c.toNat ++ ['\x7d']

def quotedChar (delimiter c : Char) : List Char :=
  match c with
  | '\x00' => ['\\', '0']
  | '\t' => ['\\', 't']
  | '\n' => ['\\', 'n']
  | '\r' => ['\\', 'r']
  | '\\' => ['\\', '\\']
  | c =>
      if c = delimiter then ['\\', c]
      else if isExtending c || !isPrintable c then byNumber c
      else [c]

def quoted (delimiter : Char) (s : List Char) : String :=
  String.ofList ([delimiter] ++ s.flatMap (quotedChar delimiter) ++ [delimiter])

end Acceptors.Text
