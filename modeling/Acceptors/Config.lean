import Acceptors.Determinization
import Acceptors.Log.Logger
import Acceptors.Toml.Decode
import Acceptors.Toml.Quote

/-!
# Configuration of the conversions

A configuration is a TOML document.  Everything in it may be left out and has a default, and what
is not known is ignored.
-/

namespace Acceptors

structure LoggerConfig where
  enabled : Bool := false
  logFile : Bool := false
  logDirectory : String := "./logs"
  logLevel : Log.Level := .warn
deriving DecidableEq, Repr

structure Config where
  completeDFA : Bool := false
  naming : Naming := .numbered
  logger : LoggerConfig := {}
deriving DecidableEq, Repr

namespace LoggerConfig

def fieldNames : List String := ["enabled", "log_file", "log_directory", "log_level"]

def ofValue? (v : Toml.Value) : Option LoggerConfig := do
  let field ← Toml.fields? fieldNames v
  let enabled ← Toml.orDefault false Toml.asBool? (field "enabled")
  let logFile ← Toml.orDefault false Toml.asBool? (field "log_file")
  let logDirectory ← Toml.orDefault "./logs" Toml.asString? (field "log_directory")
  let logLevel ← Toml.orDefault .warn (Toml.asChoice? Log.Level.ofText?) (field "log_level")
  return { enabled, logFile, logDirectory, logLevel }

/-- The logger that the configuration asks for, with its file among the files, or none. -/
def openLogger (c : LoggerConfig) (name stamp : String) (styles : Bool) (t : Files.Tree) :
    Except Log.SetupError (Option Log.Logger × Files.Tree) :=
  if ¬c.enabled then
    .ok (none, t)
  else if ¬c.logFile then
    .ok (some (.ofLevel c.logLevel name styles), t)
  else do
    let path := Files.Path.join c.logDirectory (Log.fileName name stamp)
    let (logger, t) ← Log.Logger.toFile c.logLevel name styles path t
    return (some logger, t)

end LoggerConfig

namespace Config

def fieldNames : List String := ["complete_dfa", "state_naming", "logger"]

def ofValue? (v : Toml.Value) : Option Config := do
  let field ← Toml.fields? fieldNames v
  let completeDFA ← Toml.orDefault false Toml.asBool? (field "complete_dfa")
  let naming ← Toml.orDefault .numbered (Toml.asChoice? Naming.ofText?) (field "state_naming")
  let logger ← Toml.orDefault {} LoggerConfig.ofValue? (field "logger")
  return { completeDFA, naming, logger }

def read (s : String) : Option Config := do
  ofValue? (.table .header (← Toml.ofDocument? s))

def assignmentLine (key : String) (written : List Char) : List Char :=
  key.toList ++ [' ', '=', ' '] ++ written ++ ['\n']

def writtenBool (b : Bool) : List Char := if b then "true".toList else "false".toList

def writtenString (s : String) : List Char := Toml.quote s.toList

/-- The text of a document that has everything in it. -/
def write (c : Config) : String := String.ofList <|
  assignmentLine "complete_dfa" (writtenBool c.completeDFA) ++
  assignmentLine "state_naming" (writtenString c.naming.text) ++
  ['\n'] ++
  "[logger]".toList ++ ['\n'] ++
  assignmentLine "enabled" (writtenBool c.logger.enabled) ++
  assignmentLine "log_file" (writtenBool c.logger.logFile) ++
  assignmentLine "log_directory" (writtenString c.logger.logDirectory) ++
  assignmentLine "log_level" (writtenString c.logger.logLevel.text)

inductive ReadError where
  | unreadable (path : String)
  | malformed
deriving DecidableEq, Repr

def ReadError.message : ReadError → String
  | unreadable path => "Failed to read config file " ++ path
  | malformed => "Failed to parse conversion config"

/-- Reads the content of a file, if it has any and if that is text. -/
def ofFile (path : String) (content : Option ByteArray) : Except ReadError Config :=
  match content.bind String.fromUTF8? with
  | none => .error (.unreadable path)
  | some s =>
      match read s with
      | some c => .ok c
      | none => .error .malformed

end Config

end Acceptors
