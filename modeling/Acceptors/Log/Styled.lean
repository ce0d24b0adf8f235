import Acceptors.Log.Level

/-!
# Styled text

A terminal switches to a style at an escape sequence and back to plain text at the reset sequence.
-/

namespace Acceptors.Log

def escapeSequence (code : Nat) : String := "\x1b[" ++ toString code ++ "m"

/-- The text in a style, if styles are on.  Resets inside the text return to the style. -/
def styled (on : Bool) (code : Nat) (s : String) : String :=
  if on then
    escapeSequence code ++ s.replace (escapeSequence 0) (escapeSequence 0 ++ escapeSequence code) ++
      escapeSequence 0
  else
    s

/-- The code of dim text. -/
def dim : Nat := 2

def Level.styledTag (on : Bool) (level : Level) : String := styled on level.colorCode level.tag

end Acceptors.Log
