/-!
# Records

A record tells of one event.  It has a severity, a text, and possibly named values.
-/

namespace RiscV

/-- How important an event is. -/
inductive Severity where
  | trace
  | debug
  | info
  | error
  deriving DecidableEq, Repr

namespace Severity

def name : Severity → String
  | trace => "TRACE"
  | debug => "DEBUG"
  | info => "INFO"
  | error => "ERROR"

end Severity

/-- What is told of an event. -/
structure Record where
  /-- How important the event is. -/
  severity : Severity
  text : String
  /-- Names and values in the order in which they are told. -/
  values : List (String × String) := []
  deriving DecidableEq, Repr

namespace Record

/-- The record in one line. -/
def line (record : Record) : String :=
  let values := record.values.map fun (name, value) => name ++ "=" ++ value
  let suffix := if values.isEmpty then "" else " [" ++ ",".intercalate values ++ "]"
  record.severity.name ++ " " ++ record.text ++ suffix

end Record

end RiscV
