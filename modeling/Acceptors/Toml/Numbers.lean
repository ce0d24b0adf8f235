import Acceptors.Toml.Strings

/-!
# Numbers of TOML

Numbers are read from a whole token.  Digits may be grouped by single underscores between them.
Integers have 64 bits with a sign, and a float must not round to infinity.
-/

namespace Acceptors.Toml

inductive Sign where
  | plus
  | minus
deriving DecidableEq, Repr

/-- Takes a sign off the front of a token; without one a number is positive. -/
def splitSign : List Char → Sign × List Char
  | '+' :: cs => (.plus, cs)
  | '-' :: cs => (.minus, cs)
  | cs => (.plus, cs)

def ungroup (isDigit : Char → Bool) : List Char → Option (List Char)
  | [] => none
  | [c] => if isDigit c then some [c] else none
  | c :: '_' :: cs => if isDigit c then (ungroup isDigit cs).map (c :: ·) else none
  | c :: cs => if isDigit c then (ungroup isDigit cs).map (c :: ·) else none

def isDecimal (c : Char) : Bool := '0' ≤ c && c ≤ '9'

def isHexadecimal (c : Char) : Bool := (hexValue? c).isSome

def isOctal (c : Char) : Bool := '0' ≤ c && c ≤ '7'

def isBinary (c : Char) : Bool := c == '0' || c == '1'

/-- The number that digits write in a base, the most significant digit first. -/
def numberOf (base : Nat) (digits : List Char) : Nat :=
  digits.foldl (fun n c => base * n + (hexValue? c).getD 0) 0

/-- Decimal digits that begin with a zero only if that is all. -/
def wholeDigits? (cs : List Char) : Option (List Char) :=
  match ungroup isDecimal cs with
  | some ('0' :: _ :: _) => none
  | digits => digits

def inRange (n : Int) : Bool := Int64.minValue.toInt ≤ n && n ≤ Int64.maxValue.toInt

def integer? (token : List Char) : Option Int := do
  let n ← match token with
    | '0' :: 'x' :: cs => (ungroup isHexadecimal cs).map fun ds => Int.ofNat (numberOf 16 ds)
    | '0' :: 'o' :: cs => (ungroup isOctal cs).map fun ds => Int.ofNat (numberOf 8 ds)
    | '0' :: 'b' :: cs => (ungroup isBinary cs).map fun ds => Int.ofNat (numberOf 2 ds)
    | cs =>
        let (sign, cs) := splitSign cs
        (wholeDigits? cs).map fun ds =>
          match sign with
          | .plus => Int.ofNat (numberOf 10 ds)
          | .minus => -Int.ofNat (numberOf 10 ds)
  if inRange n then some n else none

/-- A float as it is written: its sign, its digits, how many follow the point, its exponent. -/
structure Decimal where
  sign : Sign
  digits : List Char
  places : Nat
  exponent : Int
deriving DecidableEq, Repr

/-- The least number that rounds to infinity: halfway from the largest float to `2 ^ 1024`. -/
def overflowBound : Nat := Nat.pow 2 1024 - Nat.pow 2 970

/--
The number rounds to infinity.  Whether it can is seen from the position of its first digit, so that
a power of ten is only computed where the position leaves it open.
-/
def Decimal.roundsToInfinity (d : Decimal) : Bool :=
  let digits := d.digits.dropWhile (· == '0')
  let shift := d.exponent - d.places
  let position := digits.length + shift
  if digits.isEmpty || position ≤ 308 then false
  else if 310 ≤ position then true
  else if 0 ≤ shift then overflowBound ≤ numberOf 10 digits * Nat.pow 10 shift.toNat
  else overflowBound * Nat.pow 10 (-shift).toNat ≤ numberOf 10 digits

/-- The exponent after the letter: a sign and digits, which may begin with zeros. -/
def exponent? (cs : List Char) : Option Int :=
  let (sign, cs) := splitSign cs
  (ungroup isDecimal cs).map fun ds =>
    match sign with
    | .plus => Int.ofNat (numberOf 10 ds)
    | .minus => -Int.ofNat (numberOf 10 ds)

/-- A number with a fraction, an exponent or both. -/
def decimal? (token : List Char) : Option Decimal := do
  let (sign, cs) := splitSign token
  let isExponent := fun c : Char => c == 'e' || c == 'E'
  let mantissa := cs.takeWhile (!isExponent ·)
  let whole := mantissa.takeWhile (· != '.')
  let digits ← wholeDigits? whole
  let places ← match mantissa.drop whole.length with
    | [] => some []
    | _ :: fraction => ungroup isDecimal fraction
  let exponent ← match cs.drop mantissa.length with
    | [] => if places.isEmpty then none else some 0
    | _ :: exponent => exponent? exponent
  return ⟨sign, digits ++ places, places.length, exponent⟩

/-- The token is a float: infinite, not a number, or a decimal that does not become infinite. -/
def isFloat (token : List Char) : Bool :=
  let (_, cs) := splitSign token
  if cs = "inf".toList ∨ cs = "nan".toList then
    true
  else
    match decimal? token with
    | some d => d.sign == .minus || !d.roundsToInfinity
    | none => false

end Acceptors.Toml
