/-!
# Sources of randomness

A source answers two questions: whether a chance comes true, and which number below a bound is
drawn.  `WordSource` answers both from a sequence of 64-bit words, first the words it was given and
then those of a generator.
-/

namespace Acceptors.Random

/-- A probability with 64 binary places: the chance that a word is below `hits`. -/
structure Probability where
  hits : Nat
  hits_le : hits ≤ UInt64.size
deriving DecidableEq, Repr

namespace Probability

def ofHits (n : Nat) : Probability := ⟨min n UInt64.size, Nat.min_le_right _ _⟩

/--
The probability nearest below a number.  Numbers below zero count as zero and numbers above one as
one; what is not a number is no probability.
-/
def ofFloat? (x : Float) : Option Probability :=
  let bits := x.toBits.toNat
  let exponent := (bits >>> 52) % 2048
  let fraction := bits % (1 <<< 52)
  if exponent = 2047 ∧ fraction ≠ 0 then
    none
  else if 1 <<< 63 ≤ bits then
    some (ofHits 0)
  else
    let significand := if exponent = 0 then fraction else (1 <<< 52) + fraction
    some (ofHits ((significand <<< max exponent 1) >>> 1011))

end Probability

class Source (σ : Type) where
  flip : Probability → σ → Bool × σ
  below : (n : Nat) → 0 < n → σ → Fin n × σ

/-- A sequence of words: first those that are pending, then those generated from the seed. -/
structure WordSource where
  pending : List UInt64
  seed : UInt64
  /-- How many words were taken. -/
  taken : Nat
deriving DecidableEq, Repr

namespace WordSource

/-- Mixes the bits of a word. -/
def mix (z : UInt64) : UInt64 :=
  let z := (z ^^^ (z >>> 30)) * 0xBF58476D1CE4E5B9
  let z := (z ^^^ (z >>> 27)) * 0x94D049BB133111EB
  z ^^^ (z >>> 31)

def next (s : WordSource) : UInt64 × WordSource :=
  match s.pending with
  | word :: pending => (word, { s with pending, taken := s.taken + 1 })
  | [] =>
      let seed := s.seed + 0x9E3779B97F4A7C15
      (mix seed, { s with seed, taken := s.taken + 1 })

/-- Certainty takes no word; every other chance is decided by one word. -/
def flip (p : Probability) (s : WordSource) : Bool × WordSource :=
  if p.hits = UInt64.size then
    (true, s)
  else
    let (word, s) := s.next
    (decide (word.toNat < p.hits), s)

/--
The largest low half that is accepted when a word is scaled to numbers below `n`.  The count of
accepted low halves is `n` times a power of two, and so each number below `n` is equally likely.
-/
def zone (n : Nat) : Nat := (n <<< (63 - Nat.log2 n)) - 1

/-- Scales words to numbers below `n` until one is accepted, for at most `tries` words. -/
def belowWithin (n : Nat) (h : 0 < n) : Nat → WordSource → Fin n × WordSource
  | 0, s => (⟨0, h⟩, s)
  | tries + 1, s =>
      let (word, s) := s.next
      let scaled := word.toNat * n
      if scaled % UInt64.size ≤ zone n then
        (⟨scaled / UInt64.size, by
          have := word.toNat_lt_size
          exact Nat.div_lt_of_lt_mul (Nat.mul_lt_mul_of_pos_right this h)⟩, s)
      else
        belowWithin n h tries s

/--
The word zero is accepted for every bound, and the generator meets it within one period.  The tries
therefore always suffice.
-/
def below (n : Nat) (h : 0 < n) (s : WordSource) : Fin n × WordSource :=
  belowWithin n h (s.pending.length + UInt64.size) s

instance : Source WordSource := ⟨flip, below⟩

end WordSource

end Acceptors.Random
