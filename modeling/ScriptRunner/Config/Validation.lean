import ScriptRunner.Config.Basic
import ScriptRunner.Duration.Parser
import ScriptRunner.Failure
import ScriptRunner.Glob.Parser

/-!
# Validating project configs

`Config.ofRaw` reads the texts of a config: globs, durations, filters.  The first fault found is the one reported; the
sections are looked at in the order workspace, filters, run, watch.
-/

namespace ScriptRunner.Config

/-- A pattern without the sign of negation in front. -/
def withoutSign (pattern : String) : String :=
  match pattern.toList with
  | '!' :: rest => String.ofList rest
  | _ => pattern

/-- A text of some field of the config is a glob. -/
def checkGlob (field pattern text : String) : Except Failure Unit :=
  match Glob.parse text false with
  | .ok _ => .ok ()
  | .error e => .error (.config (field ++ " has invalid glob '" ++ pattern ++ "': " ++ e.message))

/-- Every member pattern is a glob, without its sign. -/
def checkMembers (members : Option (List String)) : Except Failure Unit :=
  (members.getD []).forM fun p => checkGlob "[workspace].members" p (withoutSign p)

/-- A filter has a name that can be referred to, and no blank pattern. -/
def checkFilter (name : String) (f : NamedFilter) : Except Failure Unit :=
  if Text.isBlankText name then .error (.config "named filters must have a non-empty name")
  else if name.toList.head? = some '@' then
    .error (.config s!"named filter '{name}' must not start with '@' (reserved for explicit references)")
  else if f.patterns.any Text.isBlankText then .error (.config s!"named filter '{name}' contains an empty pattern")
  else .ok ()

def checkFilters (filters : Filters) : Except Failure Unit := filters.entries.forM fun e => checkFilter e.1 e.2

/-- A duration in some field of the config. -/
def readDuration (field text : String) : Except Failure Duration :=
  (Duration.parse text).mapError fun e => .config (field ++ ": " ++ e.message)

/-- The timeout of a run; there must be at least one job. -/
def checkRun (run : RawRun) : Except Failure (Option Duration) :=
  if run.jobs = some 0 then .error (.config "[run].jobs must be >= 1 (got 0)")
  else match run.timeout with
    | none => .ok none
    | some text => (readDuration "[run].timeout" text).map some

def checkWatch (w : RawWatch) : Except Failure WatchSettings := do
  let pollInterval ← readDuration "[watch].poll_interval" w.pollInterval
  if pollInterval.nanos = 0 then throw (.config "[watch].poll_interval must be greater than zero")
  let debounce ← readDuration "[watch].debounce" w.debounce
  w.exclude.forM fun p => checkGlob "[watch].exclude" p p
  pure ⟨pollInterval, debounce, w.rerun, w.exclude, w.useHash⟩

/-- What a config says, or the first fault in it. -/
def ofRaw (raw : RawConfig) : Except Failure Config := do
  checkMembers raw.members
  checkFilters raw.filters
  let timeout ← checkRun raw.run
  let watch ← checkWatch raw.watch
  pure ⟨raw.members, raw.filters, raw.run.jobs, timeout, watch⟩

/-- A config is accepted if each of its sections is. -/
theorem ofRaw_eq_ok_iff {raw : RawConfig} {c : Config} :
    ofRaw raw = .ok c ↔ checkMembers raw.members = .ok () ∧ checkFilters raw.filters = .ok () ∧
      ∃ timeout watch, checkRun raw.run = .ok timeout ∧ checkWatch raw.watch = .ok watch ∧
        c = ⟨raw.members, raw.filters, raw.run.jobs, timeout, watch⟩ := by
  unfold ofRaw
  cases checkMembers raw.members with
  | error e => exact ⟨nofun, nofun⟩
  | ok =>
    cases checkFilters raw.filters with
    | error e => exact ⟨nofun, nofun⟩
    | ok =>
      cases checkRun raw.run with
      | error e => exact ⟨nofun, nofun⟩
      | ok timeout =>
        cases checkWatch raw.watch with
        | error e => exact ⟨nofun, nofun⟩
        | ok watch => simp [bind, Except.bind, pure, Except.pure, eq_comm]

end ScriptRunner.Config
