import ScriptRunner.Text.Blank
import ScriptRunner.Text.Lowercase

/-!
# Re-run scopes

What a change runs again: everything, or only the members it affects.
-/

namespace ScriptRunner

/-- The members that run again after a change. -/
inductive RerunScope where
  /-- Every selected member. -/
  | all
  /-- The changed members and the members that depend on them. -/
  | affected
  deriving DecidableEq, Repr, Inhabited

namespace RerunScope

def name : RerunScope → String
  | all => "all"
  | affected => "affected"

/-- The scope of an exact name. -/
def ofName? (s : String) : Option RerunScope :=
  if s = "all" then some all else if s = "affected" then some affected else none

/-- A text that names no scope, trimmed and in lower case. -/
structure Unknown where
  name : String
  deriving DecidableEq, Repr

def Unknown.message (e : Unknown) : String :=
  s!"invalid rerun scope: {e.name} (expected \"all\" or \"affected\")"

/-- Reads a scope; blanks around the name and its case do not matter. -/
def parse (text : String) : Except Unknown RerunScope :=
  let folded := String.ofList (Text.lower (Text.trim text.toList))
  match ofName? folded with
  | some scope => .ok scope
  | none => .error ⟨folded⟩

theorem ofName?_name (scope : RerunScope) : ofName? scope.name = some scope := by
  cases scope <;> decide

end RerunScope

end ScriptRunner
