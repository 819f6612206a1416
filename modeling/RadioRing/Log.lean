import RadioRing.Text.Digits
/-!
# Log — an entry as an observer reads it

An `Entry` has a level, a fixed sentence and named values, every value already in its text form.
-/

namespace RadioRing.Log

/-- How much an entry matters. -/
inductive Level
  | trace
  | debug
  | info
  | warn
deriving DecidableEq, Repr

/-- The word for a level. -/
def Level.text : Level → String
  | trace => "TRACE"
  | debug => "DEBUG"
  | info => "INFO"
  | warn => "WARN"

/-- What an observer reads. -/
structure Entry where
  level : Level
  sentence : String
  /-- Names and values. -/
  fields : List (String × String)
deriving DecidableEq, Repr

end RadioRing.Log
