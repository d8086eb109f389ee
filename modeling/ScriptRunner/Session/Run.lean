import ScriptRunner.CommandLine.Parser
import ScriptRunner.Config.Loader
import ScriptRunner.Repository.Detection
import ScriptRunner.Session.Basic
import ScriptRunner.Workspace.Discovery

/-!
# Whole runs

From the words of a command line to an exit code: the project config is loaded, the request is planned, and the plan is
shown or carried out.
-/

namespace ScriptRunner

namespace Session

/-- Why a run comes to nothing, and what it was about at that moment. -/
structure Fault where
  context : Option String := none
  failure : Failure
  deriving DecidableEq, Repr

namespace Fault

/-- What went wrong, the outermost text first. -/
def reasons (f : Fault) : List String := f.context.toList ++ f.failure.message :: f.failure.causes

/-- The text at the end of a run that came to nothing: the outermost reason, then the others, numbered if there are
several. -/
def text (f : Fault) : String :=
  let causes := f.reasons.drop 1
  let line (cause : String × Nat) : String :=
    if causes.length = 1 then "    " ++ cause.1 else s!"    {cause.2}: " ++ cause.1
  let listing := if causes.isEmpty then "" else "\n\nCaused by:\n" ++ "\n".intercalate (causes.zipIdx.map line)
  "wsrun error: " ++ f.reasons.headD "" ++ listing

end Fault

/-- A step of a run. -/
abbrev Step := ExceptT Fault (StateM Session)

/-- A step that loads or plans. -/
def attempt {α : Type} (x : Attempt α) (context : Option String := none) : Step α := do
  modify (·.logAll x.run.entries)
  match x.run.value with
  | .ok a => pure a
  | .error f => throw ⟨context, f⟩

def say (text : String) : Step Unit := modify (·.print text)

end Session

namespace Arguments

/-- The file of the project config. -/
def configPath (a : Arguments) : String := Path.join a.root a.config

def request (a : Arguments) : Request :=
  { filter := a.filter
    ordered := !a.noOrder
    changes := if a.changed then some ⟨a.baseRef, !a.noUncommitted, !a.noUntracked⟩ else none }

/-- How many workers a run has.  One after another goes before a number on the command line, and that before one in the
config. -/
def workers (a : Arguments) (c : Config) : Nat :=
  if a.sequential then 1
  else match a.jobs.or c.jobs with
    | some jobs => poolSize jobs
    | none => defaultPoolSize Session.processors

end Arguments

/-- The lines that list named filters. -/
def Filters.listing (filters : Filters) : Logged String := do
  if filters.isEmpty then pure "No named filters defined.\n"
  else
    let lines ← filters.entries.mapM fun e => do
      let spec ← FilterSpec.ofExpression filters (some ("@" ++ e.1))
      let patterns := match spec with
        | .ok spec => ", ".intercalate spec.patterns
        | .error e => "<" ++ e.message ++ ">"
      let description := match e.2.description with
        | some text => "  # " ++ text
        | none => ""
      pure (e.1 ++ ": " ++ patterns ++ description ++ "\n")
    pure (String.join lines)

/-- The lines that show what a plan would run. -/
def Plan.listing (p : Plan) (script : String) : String :=
  let group (g : List Member × Nat) : String :=
    s!"  group {g.2 + 1}:\n" ++ String.join (g.1.map fun m => "    - " ++ m.name ++ " (" ++ m.path ++ ")\n")
  "wsrun dry-run: '" ++ script ++ s!"' in {p.memberCount} member(s), {p.groups.length} group(s)\n" ++
    String.join (p.groups.zipIdx.map group)

namespace Session

/-- Carries out what is prepared, and yields the exit code. -/
def carryOut (a : Arguments) (c : Config) (invocation : Invocation) (p : Prepared) : Step Nat := do
  let settings : RunSettings := ⟨invocation, a.timeout.or c.timeout, a.workers c⟩
  modify (·.log ⟨.debug, "executor configured",
    [("workers", .number settings.workers),
      ("timeout", .plain (Text.optionText (settings.timeout.map Duration.brief)))]⟩)
  if !a.watch then
    let (code, s) := Execution.once (host a.verbose) settings enoughSteps p.plan (← get)
    set s
    pure code
  else
    let watching := { c.watch with rerun := a.rerunScope.getD c.watch.rerun }
    match Watcher.ofSettings p.selected p.workspace.dependencies p.plan watching with
    | .error f => throw ⟨none, f⟩
    | .ok w =>
      let around := surroundings a.verbose invocation.script watching w
      let (code, s) := Execution.watched around settings enoughSteps w (← get)
      set s
      pure code

/-- Does what a command line says, and yields the exit code. -/
def follow (a : Arguments) : Step Nat := do
  let s ← get
  let path := a.configPath
  let config ← attempt (ExceptT.mk (Config.loadOptional s.tree path s.cwd)) (some ("loading " ++ Text.quoted path))
  let c := config.getD {}
  if a.listFilters then
    say (← attempt (Attempt.lift (Filters.listing c.filters)))
    return 0
  let some script := a.script | throw ⟨none, .other ["no script given"]⟩
  let invocation : Invocation := ⟨script, a.args⟩
  let load := Workspace.load s.tree s.cwd c.members a.root
  match ← attempt (a.request.prepare load (Repository.detector s.repository s.tree) c.filters) with
  | .error message =>
    say (message ++ "\n")
    return 0
  | .ok p =>
    if a.dryRun then
      say (p.plan.listing script)
      return 0
    carryOut a c invocation p

/-- How a run ends. -/
inductive Result where
  /-- The command line is not carried out. -/
  | refused (e : ArgumentError)
  | failed (f : Fault)
  | finished (code : Nat)
  deriving DecidableEq, Repr

def Result.exitCode : Result → Nat
  | refused e => e.exitCode
  | failed _ => 1
  | finished code => code

/-- The name of the setting for the log level. -/
def levelSetting : String := "WSRUN_LOG"

/-- Carries out a command line. -/
def execute (words : List String) (s : Session) : Result × Session :=
  match CommandLine.parse words with
  | .error e => (.refused e, s)
  | .ok a =>
    let level := Log.Level.chosen a.logLevel (s.runner.environment.lookup levelSetting)
    match (follow a).run { s with level := level } with
    | (.ok code, s) => (.finished code, s)
    | (.error f, s) => (.failed f, s)

end Session

end ScriptRunner
