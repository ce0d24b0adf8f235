/-!
# Room for items

Items whose number is known beforehand are given their room before the first of them is made.  One
piece of room has at most as many bytes as a signed number of 64 bits can count.
-/

namespace Acceptors.Capacity

def maxBytes : Nat := (1 <<< 63) - 1

/-- There can be room for `count` items of `width` bytes each. -/
def fits (count width : Nat) : Bool := decide (count * width ≤ maxBytes)

def overflow : String := "capacity overflow"

end Acceptors.Capacity
