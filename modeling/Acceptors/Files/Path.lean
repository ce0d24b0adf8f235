/-!
# Paths as text

A path is a text whose pieces are separated by slashes.  Empty pieces stand for nothing, and neither
does a dot, except at the very beginning.  A path that begins with a slash is absolute: it leads
from the root, and others from the working directory.
-/

namespace Acceptors.Files

namespace Path

def pieces : List Char → List (List Char)
  | [] => [[]]
  | '/' :: cs => [] :: pieces cs
  | c :: cs =>
      match pieces cs with
      | [] => [[c]]
      | piece :: rest => (c :: piece) :: rest

def split (path : String) : List String := (pieces path.toList).map String.ofList

def isAbsolute (path : String) : Bool := path.startsWith "/"

/-- The piece at a position stands for a step of the path. -/
def isStep (position : Nat) (piece : String) : Bool :=
  piece != "" && (piece != "." || position == 0)

/--
The text of a path without its last step.  It ends with the step before that, so that slashes and
dots in between are dropped.  The root itself has no parent.
-/
def parent? (path : String) : Option String :=
  let all := split path
  match (all.zipIdx.filter fun (piece, i) => isStep i piece).reverse with
  | [] => none
  | [_] => some (if isAbsolute path then "/" else "")
  | _ :: (_, i) :: _ => some ("/".intercalate (all.take (i + 1)))

/-- Names have at most 255 bytes, none of which is zero. -/
def isName (name : String) : Bool := name.utf8ByteSize ≤ 255 && !name.toList.contains '\x00'

/-- Whole paths have at most 4095 bytes. -/
def isShort (path : String) : Bool := path.utf8ByteSize ≤ 4095

/-- The path of a name in a directory.  An absolute name stands for itself. -/
def join (directory name : String) : String :=
  if isAbsolute name then name
  else if directory.isEmpty || directory.endsWith "/" then directory ++ name
  else directory ++ "/" ++ name

end Path

end Acceptors.Files
