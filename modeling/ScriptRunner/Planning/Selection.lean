import ScriptRunner.Failure
import ScriptRunner.Order.Plan

/-!
# Selection and planning

From a request to a plan: the members that a filter selects, narrowed to the changed ones if the request says so, in
groups that respect their dependencies.  The loader of the workspace and the detector of changes are given from
outside.
-/

namespace ScriptRunner

/-- A step that may fail, and the log entries on the way. -/
abbrev Attempt := ExceptT Failure Logged

/-- A step that always succeeds. -/
def Attempt.lift {α : Type} (x : Logged α) : Attempt α := ExceptT.mk ⟨.ok x.value, x.entries⟩

/-- What counts as a change. -/
structure ChangeOptions where
  /-- Changes count since the merge base with this commit. -/
  baseRef : String := "main"
  uncommitted : Bool := true
  untracked : Bool := true
  deriving DecidableEq, Repr

/-- The names of the changed members among some candidates. -/
abbrev Detector := (root : String) → List Member → ChangeOptions → Attempt (List String)

/-- What to run. -/
structure Request where
  filter : Option String := none
  /-- Whether dependencies order the members. -/
  ordered : Bool := true
  changes : Option ChangeOptions := none
  deriving DecidableEq, Repr

/-- A plan with the members and the workspace that it comes from. -/
structure Prepared where
  workspace : Workspace
  selected : List Member
  plan : Plan

/-- Some members, or a message that says why there are none. -/
abbrev Selection := Except String (List Member)

namespace Selection

/-- The members that a filter expression selects, in workspace order. -/
def filtered (filters : Filters) (expression : Option String) (members : List Member) : Attempt (List Member) := do
  let spec ← Attempt.lift (FilterSpec.ofExpression filters expression)
  match spec with
  | .error e => throw (.ofFilter e)
  | .ok spec =>
    let matched := members.filter fun m => spec.selects m.name
    Attempt.lift (Logged.note .debug "resolved filter"
      [("filter", .plain spec.text), ("matched", .number matched.length), ("total", .number members.length)])
    pure matched

def noMatch : String := "No workspace members match the filter."

def noChange (baseRef : String) : String := s!"No matching workspace members changed since '{baseRef}'."

/-- The candidates that have changed, in their order. -/
def narrowed (detect : Detector) (root : String) (candidates : List Member) (options : ChangeOptions) :
    Attempt Selection :=
  if candidates.isEmpty then pure (.error noMatch)
  else do
    let changed ← detect root candidates options
    let kept := candidates.filter fun m => changed.contains m.name
    Attempt.lift (Logged.note .info "narrowed selection to changed members"
      [("base_ref", .plain options.baseRef), ("changed", .number kept.length)])
    pure (if kept.isEmpty then .error (noChange options.baseRef) else .ok kept)

end Selection

namespace Request

/-- The members to run, or why there are none. -/
def selection (r : Request) (detect : Detector) (filters : Filters) (w : Workspace) : Attempt Selection := do
  let matched ← Selection.filtered filters r.filter w.members
  Attempt.lift (Logged.note .debug "filter resolved"
    [("filter", .plain (Text.optionText (r.filter.map Text.quoted))), ("matched", .number matched.length),
      ("total", .number w.members.length)])
  match r.changes with
  | none => pure (if matched.isEmpty then .error Selection.noMatch else .ok matched)
  | some options => Selection.narrowed detect w.root matched options

/-- The plan of a request, or the message that there is nothing to do. -/
def prepare (r : Request) (load : Attempt Workspace) (detect : Detector) (filters : Filters) :
    Attempt (Except String Prepared) := do
  let w ← load
  match ← r.selection detect filters w with
  | .error message => pure (.error message)
  | .ok selected =>
    match ← Attempt.lift (Plan.ofMembers selected w.dependencies r.ordered) with
    | .error names => throw (.dependencyCycle names)
    | .ok plan =>
      Attempt.lift (Logged.note .info "execution plan ready"
        [("members", .number plan.memberCount), ("groups", .number plan.groups.length),
          ("ordered", .flag r.ordered)])
      pure (.ok ⟨w, selected, plan⟩)

end Request

end ScriptRunner
