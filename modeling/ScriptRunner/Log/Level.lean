import ScriptRunner.Text.Blank
import ScriptRunner.Text.Lowercase

/-!
# Log levels

Five levels, from `error` to `trace`.  The level in force comes from the command line, else from the environment,
else it is `warn`.
-/

namespace ScriptRunner.Log

inductive Level where
  | error
  | warn
  | info
  | debug
  | trace
  deriving DecidableEq, Repr, Inhabited

namespace Level

def name : Level → String
  | error => "error"
  | warn => "warn"
  | info => "info"
  | debug => "debug"
  | trace => "trace"

/-- The name at the start of a log line. -/
def label : Level → String
  | error => "ERROR"
  | warn => "WARN"
  | info => "INFO"
  | debug => "DEBUG"
  | trace => "TRACE"

/-- The more a level shows, the greater its rank. -/
def rank : Level → Nat
  | error => 1
  | warn => 2
  | info => 3
  | debug => 4
  | trace => 5

def all : List Level := [error, warn, info, debug, trace]

/-- The level of an exact name. -/
def ofName? (s : String) : Option Level := all.find? (·.name = s)

/-- The level that a setting of the environment names; blanks and case do not matter. -/
def ofSetting? (text : String) : Option Level :=
  let folded := String.ofList (Text.lower (Text.trim text.toList))
  if folded = "warning" then some warn else ofName? folded

/-- The level in force. -/
def chosen (flag : Option Level) (setting : Option String) : Level :=
  flag.getD ((setting.bind ofSetting?).getD warn)

/-- Entries of `entry` show when the level in force is `max`. -/
def shows (max entry : Level) : Bool := entry.rank ≤ max.rank

theorem ofName?_name (level : Level) : ofName? level.name = some level := by
  cases level <;> decide

end Level

end ScriptRunner.Log
