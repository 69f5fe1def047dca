/-!
# Log records

Aligning and running fixtures report their course as a list of records beside the result.
-/

namespace MentionAlign

/-- How important a record is. -/
inductive LogLevel
  | warn
  | info
  | debug
  | trace
deriving DecidableEq, Repr

/-- The name of a level. -/
def LogLevel.label : LogLevel → String
  | .warn => "WARN"
  | .info => "INFO"
  | .debug => "DEBUG"
  | .trace => "TRACE"

/-- One line of the log. -/
structure LogRecord where
  level : LogLevel
  text : String
deriving DecidableEq, Repr

end MentionAlign
