import Acceptors.Files.Tree
import Acceptors.Log.Group
import Acceptors.Log.Styled

/-!
# Loggers

A logger shows messages from its threshold on, and writes every message to its file if it has one.
What is written to the file may be held back until the logger is flushed or closed.
-/

namespace Acceptors.Log

structure Message where
  level : Level
  text : String
deriving DecidableEq, Repr

namespace Message

def debug (text : String) : Message := ⟨.debug, text⟩

def info (text : String) : Message := ⟨.info, text⟩

def warn (text : String) : Message := ⟨.warn, text⟩

def error (text : String) : Message := ⟨.error, text⟩

/-- A group of fields is one message. -/
def ofGroup (level : Level) (g : Group) : Message := ⟨level, g.text⟩

end Message

/-- What stands before a message in a file. -/
def plainPrefix (name : String) (level : Level) : String := "[" ++ level.tag ++ "] " ++ name ++ ":"

/-- What stands before a message on a terminal. -/
def shownPrefix (styles : Bool) (name : String) (level : Level) : String :=
  "[" ++ level.styledTag styles ++ "] " ++ styled styles dim (name ++ ":")

/-- A file that is written to: what has reached it, and what is held back in `room` bytes. -/
structure LogFile where
  location : Files.Location
  room : Nat
  written : String
  pending : String
deriving DecidableEq, Repr

namespace LogFile

def usualRoom : Nat := 8192

def fresh (location : Files.Location) : LogFile := ⟨location, usualRoom, "", ""⟩

def flush (f : LogFile) : LogFile := { f with written := f.written ++ f.pending, pending := "" }

def hold (f : LogFile) (s : String) : LogFile := { f with pending := f.pending ++ s }

/--
Holds a text back if there is room for it.  If it is too long for the room that is left, then what
is held back goes to the file first, and so does a text that is too long for all of the room.
-/
def write (f : LogFile) (s : String) : LogFile :=
  let spare := f.room - f.pending.utf8ByteSize
  if s.utf8ByteSize < spare then
    f.hold s
  else
    let f := if spare < s.utf8ByteSize then f.flush else f
    if f.room ≤ s.utf8ByteSize then { f with written := f.written ++ s } else f.hold s

/-- The end of the line is written for itself. -/
def writeLine (f : LogFile) (line : String) : LogFile := (f.write line).write "\n"

end LogFile

structure Logger where
  threshold : Level
  name : String
  styles : Bool
  file : Option LogFile
deriving DecidableEq, Repr

/-- What a logger can be asked for. -/
inductive Call where
  | log (level : Level) (text : String)
  | debug (text : String)
  | info (text : String)
  | warn (text : String)
  | error (text : String)
  | group (level : Level) (g : Group)
  | flush
deriving DecidableEq, Repr

namespace Logger

/-- A logger without a file. -/
def ofLevel (threshold : Level) (name : String) (styles : Bool) : Logger :=
  ⟨threshold, name, styles, none⟩

/-- Logs a message: what is shown, and the logger afterwards. -/
def log (l : Logger) (m : Message) : String × Logger :=
  let line := plainPrefix l.name m.level ++ " " ++ m.text
  (if m.level.shownAt l.threshold then
      shownPrefix l.styles l.name m.level ++ " " ++ m.text ++ "\n"
    else "",
    { l with file := l.file.map (·.writeLine line) })

def flush (l : Logger) : Logger := { l with file := l.file.map LogFile.flush }

def close (l : Logger) : Logger := l.flush

def call (l : Logger) : Call → String × Logger
  | .log level text => l.log ⟨level, text⟩
  | .debug text => l.log (.debug text)
  | .info text => l.log (.info text)
  | .warn text => l.log (.warn text)
  | .error text => l.log (.error text)
  | .group level g => l.log (.ofGroup level g)
  | .flush => ("", l.flush)

/-- Runs calls one after the other: what they show in all, and the logger they leave. -/
def callAll (l : Logger) : List Call → String × Logger
  | [] => ("", l)
  | c :: calls =>
      let (shown, l) := l.call c
      let (rest, l) := l.callAll calls
      (shown ++ rest, l)

def written? (l : Logger) : Option String := l.file.map LogFile.written

/-- The files with what the logger has written. -/
def save (l : Logger) (t : Files.Tree) : Files.Tree :=
  match l.file with
  | some f => t.put f.location (.file f.written)
  | none => t

end Logger

/-- Why the file of a logger cannot be made. -/
inductive SetupError where
  | directory (path : String)
  | file (path : String)
deriving DecidableEq, Repr

def SetupError.message : SetupError → String
  | directory path => "Failed to create log directory " ++ path
  | file path => "Failed to create log file " ++ path

/-- Makes the directories above a file if they are missing. -/
def makeParent (path : String) (t : Files.Tree) : Except SetupError Files.Tree :=
  match Files.Path.parent? path with
  | none => .ok t
  | some parent =>
      match t.makeDirectories parent with
      | some t => .ok t
      | none => .error (.directory parent)

/-- A logger that writes to a file. -/
def Logger.toFile (threshold : Level) (name : String) (styles : Bool) (path : String)
    (t : Files.Tree) : Except SetupError (Logger × Files.Tree) := do
  let t ← makeParent path t
  match t.createFile path with
  | some (t, location) => return (⟨threshold, name, styles, some (.fresh location)⟩, t)
  | none => throw (.file path)

/-- The name of a log file: the name of its logger in lower case, then the time of its creation. -/
def fileName (name stamp : String) : String :=
  (Text.lowercase name).map (fun c => if c = ' ' then '_' else c) ++ "_" ++ stamp ++ ".txt"

end Acceptors.Log
