import Acceptors.Toml.Document

/-!
# Typed data from TOML values

A record is a table, or an array that lists the fields in order; fields that are left out have
defaults and fields beyond the known ones are ignored.  A choice is a string, or a table with the
chosen name as its only key and nothing under it.
-/

namespace Acceptors.Toml

def asBool? : Value → Option Bool
  | .boolean b => some b
  | _ => none

def asString? : Value → Option String
  | .string s => some s
  | _ => none

/-- The value is a table or an array with nothing in it. -/
def isVoid : Value → Bool
  | .table _ entries => entries.isEmpty
  | .array items => items.isEmpty
  | .tables elements => elements.isEmpty
  | _ => false

/-- A choice among what `read` knows by name. -/
def asChoice? {α : Type} (read : String → Option α) : Value → Option α
  | .string s => read s
  | .table _ [(name, v)] => if isVoid v then read name else none
  | _ => none

/--
Access to the fields of a record, whose names are given in order.  A moment is a record with none of
them.
-/
def fields? (names : List String) : Value → Option (String → Option Value)
  | .table _ entries => some fun name => entries.lookup name
  | .array items => some fun name => items[names.idxOf name]?
  | .tables elements => some fun name => elements[names.idxOf name]?.map (.table .header)
  | .moment _ => some fun _ => none
  | _ => none

def orDefault {α : Type} (default : α) (read : Value → Option α) : Option Value → Option α
  | none => some default
  | some v => read v

end Acceptors.Toml
