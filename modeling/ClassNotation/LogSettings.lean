import ClassNotation.Text.Basic

/-! Levels and formats of the log, and the words that choose them. -/

namespace ClassNotation

inductive LogLevel where
  | trace
  | debug
  | info
  | warn
  | error
  deriving DecidableEq, Repr

namespace LogLevel

def all : List LogLevel :=
  [.trace, .debug, .info, .warn, .error]

def name : LogLevel → Text
  | .trace => "trace".toList
  | .debug => "debug".toList
  | .info => "info".toList
  | .warn => "warn".toList
  | .error => "error".toList

def ofName? (t : Text) : Option LogLevel :=
  all.find? (·.name = t)

end LogLevel

inductive LogFormat where
  | compact
  | pretty
  | json
  deriving DecidableEq, Repr

namespace LogFormat

def all : List LogFormat :=
  [.compact, .pretty, .json]

def name : LogFormat → Text
  | .compact => "compact".toList
  | .pretty => "pretty".toList
  | .json => "json".toList

def ofName? (t : Text) : Option LogFormat :=
  all.find? (·.name = t)

/-- The words are read in either case. Only ASCII letters have a counterpart among the letters
of the three words. -/
def read? (t : Text) : Option LogFormat :=
  ofName? (t.map Char.toLower)

def unknownMessage (t : Text) : Text :=
  "Unknown log format: ".toList ++ t

def setupMessage (t : Text) : Text :=
  "Invalid log format: ".toList ++ unknownMessage t

example : read? "JSON".toList = some .json := rfl

end LogFormat

/-- The variable that chooses the level before any option does. -/
def logLevelVariable : Text :=
  "MODELIGADO_LOG_LEVEL".toList

/-- The variable that chooses filters by level where no level is chosen. -/
def logFilterVariable : Text :=
  "RUST_LOG".toList

/-- The variable that chooses the format before any option does. -/
def logFormatVariable : Text :=
  "MODELIGADO_LOG_FORMAT".toList

end ClassNotation
