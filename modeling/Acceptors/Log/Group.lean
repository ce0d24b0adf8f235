/-!
# Groups of fields

A group of named fields is logged as one message of several lines.
-/

namespace Acceptors.Log

structure Group where
  title : String
  fields : List (String × String)
deriving DecidableEq, Repr

def Group.text (g : Group) : String :=
  g.title ++ " \x7b" ++ String.join (g.fields.map fun (name, value) =>
    "\n  " ++ name ++ ": " ++ value) ++ "\n\x7d"

end Acceptors.Log
