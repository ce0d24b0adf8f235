import Acceptors.Toml.Numbers

/-!
# Dates and times of TOML

A moment is a date, a time, or both, and with both there may be an offset from universal time.
-/

namespace Acceptors.Toml

structure Date where
  year : Nat
  month : Nat
  day : Nat
deriving DecidableEq, Repr

/-- A time of day; the digits of the fraction of a second are kept as written. -/
structure Time where
  hour : Nat
  minute : Nat
  second : Nat
  fraction : List Char
deriving DecidableEq, Repr

structure Offset where
  sign : Sign
  hour : Nat
  minute : Nat
deriving DecidableEq, Repr

inductive Moment where
  | date (d : Date)
  | time (t : Time)
  | both (d : Date) (t : Time) (offset : Option Offset)
deriving DecidableEq, Repr

def isLeapYear (year : Nat) : Bool :=
  year % 4 == 0 && (year % 100 != 0 || year % 400 == 0)

def daysIn (year month : Nat) : Nat :=
  if month = 2 then (if isLeapYear year then 29 else 28)
  else if month = 4 ∨ month = 6 ∨ month = 9 ∨ month = 11 then 30
  else 31

def Date.isValid (d : Date) : Bool :=
  1 ≤ d.month && d.month ≤ 12 && 1 ≤ d.day && d.day ≤ daysIn d.year d.month

/-- A second may be a leap second. -/
def Time.isValid (t : Time) : Bool := t.hour ≤ 23 && t.minute ≤ 59 && t.second ≤ 60

def Offset.isValid (o : Offset) : Bool := o.hour ≤ 23 && o.minute ≤ 59

def digits (count : Nat) : Reader Nat := fun cs =>
  let front := cs.take count
  if front.length = count ∧ front.all isDecimal then
    some (numberOf 10 front, cs.drop count)
  else
    none

def after? (c : Char) : List Char → Option (List Char)
  | d :: cs => if d = c then some cs else none
  | [] => none

def date : Reader Date := fun cs => do
  let (year, cs) ← digits 4 cs
  let (month, cs) ← digits 2 (← after? '-' cs)
  let (day, cs) ← digits 2 (← after? '-' cs)
  let d : Date := ⟨year, month, day⟩
  if d.isValid then some (d, cs) else none

def time : Reader Time := fun cs => do
  let (hour, cs) ← digits 2 cs
  let (minute, cs) ← digits 2 (← after? ':' cs)
  let (second, cs) ← digits 2 (← after? ':' cs)
  let (fraction, cs) ← match cs with
    | '.' :: cs =>
        let fraction := cs.takeWhile isDecimal
        if fraction.isEmpty then none else some (fraction, cs.drop fraction.length)
    | cs => some ([], cs)
  let t : Time := ⟨hour, minute, second, fraction⟩
  if t.isValid then some (t, cs) else none

def offset? : List Char → Option (Option Offset)
  | [] => some none
  | ['Z'] => some (some ⟨.plus, 0, 0⟩)
  | ['z'] => some (some ⟨.plus, 0, 0⟩)
  | cs => do
      let (sign, cs) ← match cs with
        | '+' :: cs => some (.plus, cs)
        | '-' :: cs => some (.minus, cs)
        | _ => none
      let (hour, cs) ← digits 2 cs
      let (minute, cs) ← digits 2 (← after? ':' cs)
      let o : Offset := ⟨sign, hour, minute⟩
      if cs.isEmpty ∧ o.isValid then some (some o) else none

/-- The moment that a whole token writes.  The letter T stands between a date and a time. -/
def moment? (token : List Char) : Option Moment :=
  match date token with
  | some (d, []) => some (.date d)
  | some (d, c :: cs) => do
      if c = 'T' ∨ c = 't' then
        let (t, cs) ← time cs
        return .both d t (← offset? cs)
      else
        none
  | none =>
      match time token with
      | some (t, []) => some (.time t)
      | _ => none

end Acceptors.Toml
