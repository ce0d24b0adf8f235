import Acceptors.Toml.Value

/-!
# Documents of TOML

A document is a sequence of lines.  A line is empty, assigns a value to a key, or is the header of a
section.  The whole document is read, and then its sections are put together to one table.
-/

namespace Acceptors.Toml

/-- The greatest number of brackets around a value, and of parts of a dotted key. -/
def nestingLimit : Nat := 79

def isBareKey (c : Char) : Bool :=
  isDecimal c || ('a' ≤ c && c ≤ 'z') || ('A' ≤ c && c ≤ 'Z') || c == '_' || c == '-'

def simpleKey : Reader String
  | '"' :: cs => lineString '"' true cs
  | '\'' :: cs => lineString '\'' false cs
  | cs =>
      let front := cs.takeWhile isBareKey
      if front.isEmpty then none else some (String.ofList front, cs.drop front.length)

/-- A key of at most `limit` parts with dots between them, and the blanks around it. -/
def key (limit : Nat) (cs : List Char) : Option (List String × List Char) :=
  match limit with
  | 0 => none
  | limit + 1 => do
      let (part, rest) ← simpleKey (skipBlanks cs)
      match skipBlanks rest with
      | '.' :: rest =>
          let (parts, rest) ← key limit rest
          return (part :: parts, rest)
      | rest => return ([part], rest)

/-- The characters of numbers, moments and the words for truth values. -/
def isTokenChar (c : Char) : Bool := isBareKey c || c == '+' || c == '.' || c == ':'

/--
The token at the front of a text.  A date and a time may also be separated by one space, which is
read as the letter between them.
-/
def token (cs : List Char) : List Char × List Char :=
  let front := cs.takeWhile isTokenChar
  let rest := cs.drop front.length
  match date front, rest with
  | some (_, []), ' ' :: more =>
      let time := more.takeWhile isTokenChar
      if time.isEmpty then (front, rest) else (front ++ 'T' :: time, more.drop time.length)
  | _, _ => (front, rest)

def ofToken? (cs : List Char) : Option Value :=
  if cs = "true".toList then some (.boolean true)
  else if cs = "false".toList then some (.boolean false)
  else
    ((moment? cs).map .moment).or <|
      ((integer? cs).map .integer).or <|
        if isFloat cs then some (.float (String.ofList cs)) else none

def array (item : Reader Value) : Reader Value := fun cs =>
  match skipGap cs with
  | ']' :: rest => some (.array [], rest)
  | _ => (readItems skipGap ']' true item cs).map fun (items, rest) => (.array items, rest)

def assignment (item : Reader Value) : Reader (List String × Value) := fun cs => do
  let (path, rest) ← key nestingLimit cs
  let (v, rest) ← item (skipBlanks (← after? '=' rest))
  return ((path, v), rest)

def inlineTable (item : Reader Value) : Reader Value := fun cs =>
  match skipBlanks cs with
  | '\x7d' :: rest => some (.table .inline [], rest)
  | _ => do
      let (pairs, rest) ← readItems skipBlanks '\x7d' false (assignment item) cs
      let entries ← Entries.assignAll [] pairs
      return (.table .inline entries, rest)

/-- A value with at most `limit` brackets around each of its parts. -/
def value (limit : Nat) (cs : List Char) : Option (Value × List Char) :=
  match limit, cs with
  | 0, '[' :: _ => none
  | 0, '\x7b' :: _ => none
  | limit + 1, '[' :: rest => array (value limit) rest
  | limit + 1, '\x7b' :: rest => inlineTable (value limit) rest
  | _, '"' :: _ => (string cs).map fun (s, rest) => (.string s, rest)
  | _, '\'' :: _ => (string cs).map fun (s, rest) => (.string s, rest)
  | _, _ =>
      let (front, rest) := token cs
      (ofToken? front).map (·, rest)

inductive Line where
  | empty
  | assignment (path : List String) (v : Value)
  | header (path : List String)
  /-- A header in doubled brackets. -/
  | element (path : List String)
deriving Repr

def line : Reader Line := fun cs => do
  match skipBlanks cs with
  | '[' :: '[' :: rest =>
      let (path, rest) ← key nestingLimit rest
      let rest ← after? ']' (← after? ']' rest)
      return (.element path, ← lineEnd? rest)
  | '[' :: rest =>
      let (path, rest) ← key nestingLimit rest
      return (.header path, ← lineEnd? (← after? ']' rest))
  | rest =>
      match lineEnd? rest with
      | some rest => return (.empty, rest)
      | none =>
          let ((path, v), rest) ← assignment (value nestingLimit) rest
          return (.assignment path v, ← lineEnd? rest)

/-- The assignments that stand before the next header, and the lines from there. -/
def splitSection : List Line → List (List String × Value) × List Line
  | .empty :: lines => splitSection lines
  | .assignment path v :: lines =>
      let (assignments, rest) := splitSection lines
      ((path, v) :: assignments, rest)
  | lines => ([], lines)

/-- Puts the sections together, each of which follows its header. -/
def assemble (entries : Entries) : List Line → Option Entries
  | [] => some entries
  | .header path :: lines => do
      assemble (← entries.openTable (splitSection lines).1 path) lines
  | .element path :: lines => do
      assemble (← entries.appendTable (splitSection lines).1 path) lines
  | _ :: lines => assemble entries lines

/-- The text after a mark of the byte order, if there is one at the beginning. -/
def skipMark : List Char → List Char
  | '\uFEFF' :: cs => cs
  | cs => cs

/-- The table of a document. -/
def ofDocument? (s : String) : Option Entries := do
  let lines ← readAll line (skipMark s.toList)
  let (assignments, sections) := splitSection lines
  assemble (← Entries.assignAll [] assignments) sections

end Acceptors.Toml
