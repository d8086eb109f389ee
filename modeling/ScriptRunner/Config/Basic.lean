import ScriptRunner.Duration.Basic
import ScriptRunner.Filter.Named
import ScriptRunner.Rerun.Scope

/-!
# Project configs

A `RawConfig` is a config as it is written, a `Config` what it says once its texts are read.  Every section may be
missing.
-/

namespace ScriptRunner

/-- What a watch leaves out unless the config says otherwise. -/
def defaultExcludes : List String :=
  ["**/node_modules/**", "**/.git/**", "**/dist/**", "**/build/**", "**/coverage/**", "**/.turbo/**",
    "**/.next/**", "**/*.tsbuildinfo"]

/-- The section on runs. -/
structure RawRun where
  jobs : Option Nat := none
  timeout : Option String := none
  deriving DecidableEq, Repr, Inhabited

/-- The section on watching. -/
structure RawWatch where
  pollInterval : String := "500ms"
  debounce : String := "100ms"
  rerun : RerunScope := .all
  exclude : List String := defaultExcludes
  useHash : Bool := false
  deriving DecidableEq, Repr, Inhabited

/-- A project config as it is written. -/
structure RawConfig where
  /-- Globs for the directories of members. -/
  members : Option (List String) := none
  filters : Filters := ∅
  run : RawRun := {}
  watch : RawWatch := {}

/-- How to watch. -/
structure WatchSettings where
  pollInterval : Duration := .ofMillis 500
  debounce : Duration := .ofMillis 100
  rerun : RerunScope := .all
  exclude : List String := defaultExcludes
  useHash : Bool := false
  deriving DecidableEq, Repr

/-- What a project config says. -/
structure Config where
  members : Option (List String) := none
  filters : Filters := ∅
  jobs : Option Nat := none
  timeout : Option Duration := none
  watch : WatchSettings := {}

end ScriptRunner
