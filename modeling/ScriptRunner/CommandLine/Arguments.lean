import ScriptRunner.Duration.Parser
import ScriptRunner.Log.Level
import ScriptRunner.Rerun.Scope

/-!
# Arguments

The arguments of a run, the options that set them, and what can be wrong with a command line.
-/

namespace ScriptRunner

/-- What a command line says. -/
structure Arguments where
  script : Option String := none
  args : List String := []
  root : String := "."
  config : String := "wsrun.toml"
  filter : Option String := none
  noOrder : Bool := false
  sequential : Bool := false
  verbose : Bool := false
  changed : Bool := false
  baseRef : String := "main"
  noUncommitted : Bool := false
  noUntracked : Bool := false
  watch : Bool := false
  rerunScope : Option RerunScope := none
  jobs : Option Nat := none
  timeout : Option Duration := none
  logLevel : Option Log.Level := none
  dryRun : Bool := false
  listFilters : Bool := false
  deriving DecidableEq, Repr

/-- Why a command line is not carried out. -/
inductive ArgumentError where
  | unknownArgument
  | invalidValue
  | valueValidation
  | missingRequiredArgument
  | argumentConflict
  | tooManyValues
  | displayHelp
  | displayVersion
  deriving DecidableEq, Repr

namespace ArgumentError

def name : ArgumentError → String
  | unknownArgument => "UnknownArgument"
  | invalidValue => "InvalidValue"
  | valueValidation => "ValueValidation"
  | missingRequiredArgument => "MissingRequiredArgument"
  | argumentConflict => "ArgumentConflict"
  | tooManyValues => "TooManyValues"
  | displayHelp => "DisplayHelp"
  | displayVersion => "DisplayVersion"

/-- A request for help or the version is answered; everything else is a fault. -/
def exitCode : ArgumentError → Nat
  | displayHelp => 0
  | displayVersion => 0
  | _ => 2

end ArgumentError

namespace CommandLine

/-- An option that takes no value. -/
inductive Flag where
  | noOrder
  | sequential
  | verbose
  | changed
  | noUncommitted
  | noUntracked
  | watch
  | dryRun
  | listFilters
  | help
  | version
  deriving DecidableEq, Repr

/-- An option that takes a value. -/
inductive Setting where
  | root
  | config
  | filter
  | baseRef
  | rerunScope
  | jobs
  | timeout
  | logLevel
  deriving DecidableEq, Repr

/-- Any option. -/
abbrev Opt := Flag ⊕ Setting

/-- The option of a long name. -/
def ofLongName? : String → Option Opt
  | "no-order" => some (.inl .noOrder)
  | "sequential" => some (.inl .sequential)
  | "verbose" => some (.inl .verbose)
  | "changed" => some (.inl .changed)
  | "no-uncommitted" => some (.inl .noUncommitted)
  | "no-untracked" => some (.inl .noUntracked)
  | "watch" => some (.inl .watch)
  | "dry-run" => some (.inl .dryRun)
  | "list-filters" => some (.inl .listFilters)
  | "help" => some (.inl .help)
  | "version" => some (.inl .version)
  | "root" => some (.inr .root)
  | "config" => some (.inr .config)
  | "filter" => some (.inr .filter)
  | "base-ref" => some (.inr .baseRef)
  | "rerun-scope" => some (.inr .rerunScope)
  | "jobs" => some (.inr .jobs)
  | "timeout" => some (.inr .timeout)
  | "log-level" => some (.inr .logLevel)
  | _ => none

/-- The option of a letter. -/
def ofLetter? : Char → Option Opt
  | 'v' => some (.inl .verbose)
  | 'w' => some (.inl .watch)
  | 'h' => some (.inl .help)
  | 'V' => some (.inl .version)
  | 'F' => some (.inr .filter)
  | 'j' => some (.inr .jobs)
  | _ => none

/-- A natural number of 64 bits, perhaps with a plus sign. -/
def jobsOf? (text : String) : Option Nat :=
  let digits := match text.toList with
    | '+' :: r => r
    | r => r
  if digits.isEmpty || !digits.all Char.isDigit then none
  else
    let n := Duration.digitsValue digits
    if n < Duration.wordLimit then some n else none

/-- The arguments with a flag set. -/
def Flag.apply (flag : Flag) (a : Arguments) : Except ArgumentError Arguments :=
  match flag with
  | noOrder => .ok { a with noOrder := true }
  | sequential => .ok { a with sequential := true }
  | verbose => .ok { a with verbose := true }
  | changed => .ok { a with changed := true }
  | noUncommitted => .ok { a with noUncommitted := true }
  | noUntracked => .ok { a with noUntracked := true }
  | watch => .ok { a with watch := true }
  | dryRun => .ok { a with dryRun := true }
  | listFilters => .ok { a with listFilters := true }
  | help => .error .displayHelp
  | version => .error .displayVersion

/-- The arguments with an option set to a value. -/
def Setting.apply (setting : Setting) (value : String) (a : Arguments) : Except ArgumentError Arguments :=
  match setting with
  | root => if value.isEmpty then .error .invalidValue else .ok { a with root := value }
  | config => if value.isEmpty then .error .invalidValue else .ok { a with config := value }
  | filter => .ok { a with filter := some value }
  | baseRef => .ok { a with baseRef := value }
  | rerunScope =>
    match RerunScope.parse value with
    | .ok scope => .ok { a with rerunScope := some scope }
    | .error _ => .error .valueValidation
  | jobs =>
    match jobsOf? value with
    | some n => .ok { a with jobs := some n }
    | none => .error .valueValidation
  | timeout =>
    match Duration.parse value with
    | .ok d => .ok { a with timeout := some d }
    | .error _ => .error .valueValidation
  | logLevel =>
    match Log.Level.ofName? value with
    | some level => .ok { a with logLevel := some level }
    | none => .error .invalidValue

end CommandLine

end ScriptRunner
