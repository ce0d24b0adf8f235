import Acceptors.Files.Path

/-!
# Trees of files

The directories and files that paths lead to, in the order in which they became known.  A directory
comes before anything in it.  Most of them lie below the working directory, but a path can also lead
out of it, from the root or by two dots.  Outside only a few places are known beforehand, and any
other is free.
-/

namespace Acceptors.Files

inductive Entry where
  | directory
  | file (content : String)
deriving DecidableEq, Repr

/-- What is seen of an entry that is not opened. -/
def Entry.unread : Entry → Entry
  | .directory => .directory
  | .file _ => .file ""

/--
The shortest path to an entry, with one slash between two steps.  The working directory itself is
the empty text, and two dots lead up from it.
-/
abbrev Location := String

namespace Location

/-- The path on which a walk from the working directory meets the entry. -/
def walked (l : Location) : String := Path.join "." l

/-- The working directory, or a directory above it that is reached by two dots alone. -/
def isAbove (l : Location) : Bool := l = "" || l = ".." || l.endsWith "/.."

def isInside (l : Location) : Bool :=
  l ≠ "" && l ≠ ".." && !l.startsWith "../" && !Path.isAbsolute l

/-- The location of the directory that two dots in `l` stand for.  The root is above itself. -/
def up (l : Location) : Location :=
  if l.isAbove then Path.join l ".." else (Path.parent? l).getD l

/-- Directories of the running system, in which nothing can be made. -/
def isSealed (l : Location) : Bool := l = "/proc" || l = "/sys"

end Location

structure Tree where
  entries : List (Location × Entry)
deriving DecidableEq, Repr

namespace Tree

/-- What every system has from its root on. -/
def outside : List (Location × Entry) :=
  (["/", "/bin", "/dev", "/etc", "/home", "/lib", "/proc", "/root", "/run", "/sys", "/tmp", "/usr",
    "/var"].map fun l => (l, .directory)) ++
  [("/dev/null", .file ""), ("/etc/passwd", .file "root:x:0:0::/root:/bin/sh\n")]

def empty : Tree := ⟨outside⟩

def inside (t : Tree) : List (Location × Entry) := t.entries.filter fun (l, _) => l.isInside

/--
The entries as a walk from the working directory reads them.  A file that it meets on too long a
path cannot be opened there and shows nothing.
-/
def listing (t : Tree) : List (Location × Entry) :=
  t.inside.map fun (l, e) => (l, if Path.isShort l.walked then e else e.unread)

def find? (t : Tree) (l : Location) : Option Entry :=
  if l.isAbove then some .directory else t.entries.lookup l

/-- Sets the entry at a location: a known one is replaced in place, a new one comes last. -/
def put (t : Tree) (l : Location) (e : Entry) : Tree :=
  if (t.find? l).isSome then
    ⟨t.entries.map fun (m, d) => if m = l then (m, e) else (m, d)⟩
  else
    ⟨t.entries ++ [(l, e)]⟩

/-- A new entry can be made under a name in a directory. -/
def accepts (directory : Location) (name : String) : Bool :=
  Path.isName name && !directory.isSealed

/-- Follows one piece of a path from a directory.  A missing directory is made on request. -/
def follow (make : Bool) (t : Tree) (l : Location) (piece : String) : Option (Tree × Location) :=
  if piece = "" ∨ piece = "." then
    some (t, l)
  else if piece = ".." then
    some (t, l.up)
  else
    let next := Path.join l piece
    match t.find? next with
    | some .directory => some (t, next)
    | some (.file _) => none
    | none => if make && accepts l piece then some (t.put next .directory, next) else none

def followAll (make : Bool) (t : Tree) (l : Location) :
    List String → Option (Tree × Location)
  | [] => some (t, l)
  | piece :: pieces => do
      let (t, l) ← t.follow make l piece
      t.followAll make l pieces

def origin (path : String) : Location := if Path.isAbsolute path then "/" else ""

/-- Makes a directory and those above it, as far as they are missing. -/
def makeDirectories (t : Tree) (path : String) : Option Tree := do
  guard (Path.isShort path)
  let (t, _) ← t.followAll true (origin path) (Path.split path)
  return t

/-- Makes an empty file in an existing directory, or empties the file that is there. -/
def createFile (t : Tree) (path : String) : Option (Tree × Location) := do
  guard (Path.isShort path)
  let pieces := Path.split path
  let name ← pieces.getLast?
  let (_, directory) ← t.followAll false (origin path) pieces.dropLast
  let l := Path.join directory name
  if name = "" ∨ name = "." ∨ name = ".." then
    none
  else
    match t.find? l with
    | some .directory => none
    | some (.file _) => some (t.put l (.file ""), l)
    | none => if accepts directory name then some (t.put l (.file ""), l) else none

/-- Makes a file with a content, and the directories above it. -/
def writeFile (t : Tree) (path content : String) : Option Tree := do
  let t ← t.makeDirectories ((Path.parent? path).getD "")
  let (t, l) ← t.createFile path
  return t.put l (.file content)

def content? (t : Tree) (path : String) : Option String := do
  guard (Path.isShort path)
  let pieces := Path.split path
  let name ← pieces.getLast?
  let (_, directory) ← t.followAll false (origin path) pieces.dropLast
  match t.find? (Path.join directory name) with
  | some (.file content) => some content
  | _ => none

end Tree

end Acceptors.Files
