import ScriptRunner.Filter.Selection
import ScriptRunner.Text.Quoted

/-!
# Failures

Why a run comes to nothing before any script starts.  `Failure.message` is the text of a failure, `Failure.causes` what
led to it, the nearest first.
-/

namespace ScriptRunner

inductive Failure where
  | config (text : String)
  /-- Neither a project config nor a manifest says where the members are. -/
  | workspaceNotFound (root : String)
  | filterNotFound (name : String)
  | circularInheritance (names : List String)
  | dependencyCycle (names : List String)
  /-- A file could not be read. -/
  | io (text : String)
  /-- A project config is not well-formed. -/
  | toml
  /-- A value does not have the shape of a project config. -/
  | json
  /-- Any other reasons, the outermost first. -/
  | other (reasons : List String)
  deriving DecidableEq, Repr

namespace Failure

def message : Failure → String
  | config text => "Configuration error: " ++ text
  | workspaceNotFound root =>
    "No workspace found at " ++ Text.quoted root ++ " (expected wsrun.toml or a package.json with \"workspaces\")"
  | filterNotFound name => "Named filter not found: " ++ name
  | circularInheritance names => "Circular filter inheritance: " ++ " -> ".intercalate names
  | dependencyCycle names => "Dependency cycle between workspace members: " ++ ", ".intercalate names
  | io text => "IO error: " ++ text
  | toml => "TOML parsing error:"
  | json => "JSON parsing error:"
  | other reasons => reasons.headD ""

/-- What led to a failure. -/
def causes : Failure → List String
  | io text => [text]
  | toml => ["malformed"]
  | json => ["malformed"]
  | other reasons => reasons.drop 1
  | _ => []

/-- The failure that a filter expression without meaning is. -/
def ofFilter : FilterError → Failure
  | .notFound name => filterNotFound name
  | .circular names => circularInheritance names

end Failure

end ScriptRunner
