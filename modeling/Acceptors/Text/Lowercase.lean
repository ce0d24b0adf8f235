import Acceptors.Text.Casing

/-!
# Lower case

Characters are mapped one by one, with two exceptions: the dotted capital I becomes two characters,
and a capital sigma at the end of a word becomes the final small sigma.  Whether a word ends is
read off the nearest characters that are not ignored for case.
-/

namespace Acceptors.Text

def isCased (c : Char) : Bool :=
  cased.contains c

def isCaseIgnorable (c : Char) : Bool :=
  caseIgnorable.contains c

/-- The lower case of a character outside a word's context. -/
def lowerChar (c : Char) : List Char :=
  if c = 'İ' then ['i', '\u0307'] else
    match lowerRow? c.toNat with
    | some row => [Char.ofNat (c.toNat + row.shift).toNat]
    | none => [c]

/-- The text goes on with a cased character, ignorable ones skipped. -/
def continuesCased (rest : List Char) : Bool :=
  match rest.dropWhile isCaseIgnorable with
  | [] => false
  | c :: _ => isCased c

/-- Lower case of a text; `inWord` says that a cased character stands before it. -/
def lowerFrom (inWord : Bool) : List Char → List Char
  | [] => []
  | c :: rest =>
      let lowered :=
        if c = 'Σ' then [if inWord && !continuesCased rest then 'ς' else 'σ']
        else lowerChar c
      lowered ++ lowerFrom (if isCaseIgnorable c then inWord else isCased c) rest

def lowercase (s : String) : String :=
  String.ofList (lowerFrom false s.toList)

end Acceptors.Text
