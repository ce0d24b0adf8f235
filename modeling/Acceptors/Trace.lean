/-!
# Reports of a computation

Conversions and simulations report what they do: a span opens a computation, and events happen in
its course.  Each carries named fields whose values are texts.
-/

namespace Acceptors

inductive TraceLevel where
  | trace
  | debug
deriving DecidableEq, Repr

def TraceLevel.text : TraceLevel → String
  | trace => "TRACE"
  | debug => "DEBUG"

inductive Report where
  | span (name : String) (level : TraceLevel) (fields : List (String × String))
  | event (message : String) (level : TraceLevel) (fields : List (String × String))
deriving DecidableEq, Repr

end Acceptors
