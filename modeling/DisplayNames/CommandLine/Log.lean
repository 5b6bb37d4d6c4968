/-!
# Log messages

Progress messages go to the error output, one line each, with their level and the component they
come from.  How often the command line asks for more messages decides which levels are shown.

## Main definitions

* `DisplayNames.CommandLine.Level` — the levels.
* `DisplayNames.CommandLine.LogRecord` — a message.
* `DisplayNames.CommandLine.logText` — the lines that are shown.
-/

set_option relaxedAutoImplicit false
set_option autoImplicit false

namespace DisplayNames

namespace CommandLine

/-- The levels of progress messages. -/
inductive Level where
  | info
  | debug
  deriving DecidableEq, Repr

/-- The word for a level, five characters wide. -/
def Level.word : Level → String
  | .info => "INFO "
  | .debug => "DEBUG"

/-- A level is shown if more messages are asked for this often. -/
def Level.threshold : Level → Nat
  | .info => 1
  | .debug => 2

/-- A progress message. -/
structure LogRecord where
  level : Level
  component : String
  message : String
  deriving DecidableEq, Repr

/-- The line of a message. -/
def LogRecord.text (r : LogRecord) : String :=
  "[" ++ r.level.word ++ "] diagnames." ++ r.component ++ ": " ++ r.message ++ "\n"

/-- The lines that are shown. -/
def logText (verbosity : Nat) (records : List LogRecord) : String :=
  String.join ((records.filter fun r => r.level.threshold ≤ verbosity).map LogRecord.text)

end CommandLine

end DisplayNames
