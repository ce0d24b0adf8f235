import Acceptors.Letter

/-!
# Labels of transitions

A transition reads a symbol or, as an epsilon transition, nothing at all.
-/

namespace Acceptors

inductive Label (α : Type) where
  | symbol (a : α)
  | epsilon
deriving DecidableEq, Repr

namespace Label

variable {α : Type}

def isEpsilon : Label α → Bool
  | symbol _ => false
  | epsilon => true

def symbol? : Label α → Option α
  | symbol a => some a
  | epsilon => none

def ofOption : Option α → Label α
  | some a => symbol a
  | none => epsilon

def reads [DecidableEq α] (label : Label α) (a : α) : Bool :=
  label == symbol a

/-- Symbols are ordered by their value, and epsilon comes last. -/
instance [Ord α] : Ord (Label α) where
  compare
    | symbol a, symbol b => compare a b
    | symbol _, epsilon => .lt
    | epsilon, symbol _ => .gt
    | epsilon, epsilon => .eq

def text [Letter α] : Label α → String
  | symbol a => Letter.quote a
  | epsilon => "ε"

@[simp] theorem symbol?_ofOption (a : Option α) : (ofOption a).symbol? = a := by
  cases a <;> rfl

@[simp] theorem ofOption_symbol? (label : Label α) : ofOption label.symbol? = label := by
  cases label <;> rfl

end Label

end Acceptors
