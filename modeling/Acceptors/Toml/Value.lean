import Acceptors.Toml.Moments

/-!
# Values and tables of TOML

A table remembers how it came about, because that decides whether it may still be added to: a table
with a header of its own, one that only headers of its parts imply, one made by a dotted key, or one
written inline.  `Entries.assign`, `Entries.openTable` and `Entries.appendTable` are the three ways
in which a document adds to its tables.  Each fails where something would be defined twice.
-/

namespace Acceptors.Toml

inductive Origin where
  | header
  | implied
  | dotted
  | inline
deriving DecidableEq, Repr

inductive Value where
  | string (s : String)
  | boolean (b : Bool)
  | integer (n : Int)
  /-- A float as it is written. -/
  | float (token : String)
  | moment (m : Moment)
  | array (items : List Value)
  | table (origin : Origin) (entries : List (String × Value))
  /-- The tables under a header of doubled brackets, in order. -/
  | tables (elements : List (List (String × Value)))
deriving Repr

abbrev Entries := List (String × Value)

namespace Entries

/-- Changes what stands under a key: `f` gets it, if there is any, and gives the new value. -/
def update (key : String) (f : Option Value → Option Value) : Entries → Option Entries
  | [] => (f none).map fun v => [(key, v)]
  | (k, v) :: entries =>
      if k = key then
        (f (some v)).map fun w => (k, w) :: entries
      else
        (update key f entries).map ((k, v) :: ·)

/-- A key may be assigned once. -/
def unassigned (v : Value) : Option Value → Option Value
  | none => some v
  | some _ => none

/--
Assigns a value to a dotted key.  The tables on the way are made if they are missing, and tables
that have a header are closed to dotted keys.  The last table must itself come from dotted keys.
-/
def assign (v : Value) : List String → Entries → Option Entries
  | [], _ => none
  | [key], entries => entries.update key (unassigned v)
  | key :: path, entries =>
      entries.update key fun
        | none => (assign v path []).map (.table .dotted)
        | some (.table .dotted inner) => (assign v path inner).map (.table .dotted)
        | some (.table .implied inner) =>
            if path.length = 1 then none else (assign v path inner).map (.table .implied)
        | some (.tables elements) =>
            match path.length, elements.getLast? with
            | 1, _ => none
            | _, none => none
            | _, some last => (assign v path last).map fun new =>
                .tables (elements.dropLast ++ [new])
        | some _ => none

def assignAll (entries : Entries) (assignments : List (List String × Value)) : Option Entries :=
  assignments.foldlM (fun entries (path, v) => entries.assign v path) entries

/--
Changes what stands at the end of the path of a header.  The tables on the way are made if they are
missing; of several tables under one key the last is meant.
-/
def below (f : Option Value → Option Value) : List String → Entries → Option Entries
  | [], _ => none
  | [key], entries => entries.update key f
  | key :: path, entries =>
      entries.update key fun
        | none => (below f path []).map (.table .implied)
        | some (.table .inline _) => none
        | some (.table origin inner) => (below f path inner).map (.table origin)
        | some (.tables elements) =>
            elements.getLast?.bind fun last =>
              (below f path last).map fun new => .tables (elements.dropLast ++ [new])
        | some _ => none

/-- A table under a header.  Only a new table or one that was implied may get a header. -/
def openTable (assignments : List (List String × Value)) :
    List String → Entries → Option Entries :=
  below fun
    | none => (assignAll [] assignments).map (.table .header)
    | some (.table .implied inner) => (assignAll inner assignments).map (.table .header)
    | some _ => none

/-- One more table under a header of doubled brackets. -/
def appendTable (assignments : List (List String × Value)) :
    List String → Entries → Option Entries :=
  below fun
    | none => (assignAll [] assignments).map fun new => .tables [new]
    | some (.tables elements) =>
        (assignAll [] assignments).map fun new => .tables (elements ++ [new])
    | some _ => none

end Entries

end Acceptors.Toml
