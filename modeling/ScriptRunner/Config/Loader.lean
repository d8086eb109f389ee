import ScriptRunner.Config.Decoder
import ScriptRunner.Config.Validation
import ScriptRunner.Files.Access
import ScriptRunner.Toml.Parser

/-!
# Loading project configs

A project config is a TOML file.  It is optional: without one the defaults hold.
-/

namespace ScriptRunner.Config

/-- The config in a file, as it is written. -/
def readRaw (t : Tree) (path : String) (cwd : List String := []) : Except Failure RawConfig :=
  match t.readText path cwd with
  | .error e => .error (.io e)
  | .ok text =>
    match (Toml.parse? text).bind (RawConfig.ofDocument? tomlConventions) with
    | some raw => .ok raw
    | none => .error .toml

/-- The config in a file. -/
def load (t : Tree) (path : String) (cwd : List String := []) : Except Failure Config :=
  (readRaw t path cwd).bind ofRaw

/-- The config in a file, if there is one. -/
def loadOptional (t : Tree) (path : String) (cwd : List String := []) :
    Logged (Except Failure (Option Config)) :=
  if t.hasFile path cwd then pure ((load t path cwd).map some)
  else do
    Logged.note .debug "no project config file; using defaults" [("path", .quoted path)]
    pure (.ok none)

end ScriptRunner.Config
