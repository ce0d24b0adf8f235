import Acceptors.Text.Lowercase

/-!
# Levels of messages

The levels are ordered by severity.  A level is read in either case, by its full name or by a short
one, and written by a tag of three letters.
-/

namespace Acceptors.Log

inductive Level where
  | debug
  | info
  | warn
  | error
deriving DecidableEq, Repr

namespace Level

def all : List Level := [debug, info, warn, error]

def severity : Level → Nat
  | debug => 0
  | info => 1
  | warn => 2
  | error => 3

instance : Ord Level := ⟨fun l m => compare l.severity m.severity⟩

/-- Messages of this level are shown from a threshold on. -/
def shownAt (level threshold : Level) : Bool := threshold.severity ≤ level.severity

def text : Level → String
  | debug => "Debug"
  | info => "Info"
  | warn => "Warn"
  | error => "Error"

def tag : Level → String
  | debug => "DBG"
  | info => "INF"
  | warn => "WAR"
  | error => "ERR"

/-- The color of the tag on a terminal. -/
def colorCode : Level → Nat
  | debug => 96
  | info => 92
  | warn => 33
  | error => 91

/-- The level written exactly as `text` writes it. -/
def ofText? (s : String) : Option Level := all.find? fun level => level.text == s

/-- Reads a level in any case, by its name or a short form. -/
def read? (s : String) : Option Level :=
  match Text.lowercase s with
  | "debug" | "dbg" => some debug
  | "info" | "inf" => some info
  | "warn" | "warning" | "war" => some warn
  | "error" | "err" => some error
  | _ => none

/-- What is said of a text that names no level. -/
def unreadable (s : String) : String := "Invalid log level: " ++ s

end Level

end Acceptors.Log
