import ScriptRunner.Config.Decoder
import ScriptRunner.Exec.Command
import ScriptRunner.Json.Parser

/-!
# Manifests

The manifest of a package: its name, its scripts, the packages that it depends on, and, at the top of a workspace, the
globs of the member directories.
-/

namespace ScriptRunner

structure Manifest where
  name : Option String := none
  /-- Nothing if the manifest does not speak of scripts. -/
  scripts : Option ScriptTable := none
  /-- The names of all dependencies, of whatever kind, in ascending order and each once. -/
  dependencies : List String := []
  /-- The globs of the member directories. -/
  workspaces : Option (List String) := none
  deriving DecidableEq

namespace Manifest

open Document

def fileName : String := "package.json"

/-- The files that may hold a member's locked dependencies; the first one found counts. -/
def lockfiles : List String := ["package-lock.json", "pnpm-lock.yaml", "yarn.lock", "bun.lockb"]

/-- The keys of a table, all of whose values can be read. -/
def keys? (d : Document) : Option (List String) :=
  (entries? (fun v => if v.isReadable then some () else none) d).map (·.map (·.1))

/-- Member globs: a list, or a table with a list of packages. -/
def workspaces? (d : Document) : Option (List String) :=
  if !d.isReadable then none
  else match texts? d, d with
    | some globs, _ => some globs
    | none, .table _ =>
      match fields? jsonConventions ["packages"] d with
      | some [packages] => field? texts? [] packages
      | _ => none
    | none, _ => none

/-- The fields of a manifest, in order. -/
def fieldNames : List String :=
  ["name", "scripts", "dependencies", "devDependencies", "peerDependencies", "optionalDependencies", "workspaces"]

def ofDocument? (d : Document) : Option Manifest :=
  match fields? jsonConventions fieldNames d with
  | some [name, scripts, runtime, development, peer, optional, workspaces] => do
    let name ← field? (optional? text?) none name
    let scripts ← field? (optional? (entries? text?)) none scripts
    let runtime ← field? keys? [] runtime
    let development ← field? keys? [] development
    let peer ← field? keys? [] peer
    let optional ← field? keys? [] optional
    let workspaces ← field? (optional? workspaces?) none workspaces
    let dependencies := (runtime ++ development ++ peer ++ optional).map fun k => (k, ())
    pure ⟨name, scripts.map SortedMap.ofList, (SortedMap.ofList dependencies).keys, workspaces⟩
  | _ => none

/-- Reads the text of a manifest. -/
def parse? (text : String) : Option Manifest := (Json.parse? text).bind ofDocument?

end Manifest

end ScriptRunner
