import ScriptRunner.Config.Basic
import ScriptRunner.Document.Basic

/-!
# The shape of a project config

Which documents are project configs.  Keys that mean nothing are passed over.
-/

namespace ScriptRunner

open Document

/-- JSON records: a list may not be too long, and a case without content stands beside `null`. -/
def jsonConventions : Conventions := ⟨false, fun d => match d with | .null => true | _ => false⟩

/-- TOML records: a list may be too long, and a case without content stands beside an empty table or list. -/
def tomlConventions : Conventions :=
  ⟨true, fun d => match d with | .table [] => true | .list [] => true | _ => false⟩

/-- A list of texts. -/
def texts? : Document → Option (List String) := list? text?

namespace NamedFilter

def ofDocument? (conv : Conventions) (d : Document) : Option NamedFilter :=
  match fields? conv ["patterns", "extends", "description"] d with
  | some [patterns, parent, description] => do
    let patterns ← field? texts? [] patterns
    let parent ← field? (optional? text?) none parent
    let description ← field? (optional? text?) none description
    pure ⟨patterns, parent, description⟩
  | _ => none

end NamedFilter

/-- Named filters; of two with one name the later counts. -/
def Filters.ofDocument? (conv : Conventions) (d : Document) : Option Filters :=
  (entries? (NamedFilter.ofDocument? conv) d).map SortedMap.ofList

/-- The globs of the section on the workspace. -/
def RawConfig.membersOfDocument? (conv : Conventions) (d : Document) : Option (Option (List String)) :=
  match fields? conv ["members"] d with
  | some [members] => field? (optional? texts?) none members
  | _ => none

def RawRun.ofDocument? (conv : Conventions) (d : Document) : Option RawRun :=
  match fields? conv ["jobs", "timeout"] d with
  | some [jobs, timeout] => do
    let jobs ← field? (optional? word?) none jobs
    let timeout ← field? (optional? text?) none timeout
    pure ⟨jobs, timeout⟩
  | _ => none

def RawWatch.ofDocument? (conv : Conventions) (d : Document) : Option RawWatch :=
  match fields? conv ["poll_interval", "debounce", "rerun", "exclude", "use_hash"] d with
  | some [pollInterval, debounce, rerun, exclude, useHash] => do
    let absent : RawWatch := {}
    let pollInterval ← field? text? absent.pollInterval pollInterval
    let debounce ← field? text? absent.debounce debounce
    let rerun ← field? (fun d => (case? conv d).bind RerunScope.ofName?) absent.rerun rerun
    let exclude ← field? texts? absent.exclude exclude
    let useHash ← field? flag? absent.useHash useHash
    pure ⟨pollInterval, debounce, rerun, exclude, useHash⟩
  | _ => none

def RawConfig.ofDocument? (conv : Conventions) (d : Document) : Option RawConfig :=
  match fields? conv ["workspace", "filters", "run", "watch"] d with
  | some [workspace, filters, run, watch] => do
    let members ← field? (RawConfig.membersOfDocument? conv) none workspace
    let filters ← field? (Filters.ofDocument? conv) ∅ filters
    let run ← field? (RawRun.ofDocument? conv) {} run
    let watch ← field? (RawWatch.ofDocument? conv) {} watch
    pure ⟨members, filters, run, watch⟩
  | _ => none

end ScriptRunner
