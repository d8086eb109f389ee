import ScriptRunner.Filter.Named
import ScriptRunner.Filter.Pattern
import ScriptRunner.Log.Entry

/-!
# Filter expressions

An expression is a named filter or a list of patterns; no expression, or a blank one, selects everything.  With `@` in
front it must be a named filter.  A filter whose ancestors end at an unknown name counts with its own patterns alone.
-/

namespace ScriptRunner

/-- A filter expression with its patterns. -/
inductive FilterSpec where
  | all
  /-- A named filter; the patterns of its last ancestor come first. -/
  | named (name : String) (patterns : List String)
  | literal (patterns : List String)
  deriving DecidableEq, Repr

/-- Why an expression stands for no filter. -/
inductive FilterError where
  | notFound (name : String)
  /-- The chain of names, the repeated one at the end. -/
  | circular (names : List String)
  deriving DecidableEq, Repr

def FilterError.message : FilterError → String
  | notFound name => s!"named filter not found: {name}"
  | circular names => "circular filter inheritance: " ++ " -> ".intercalate names

namespace FilterSpec

def patterns : FilterSpec → List String
  | all => []
  | named _ ps => ps
  | literal ps => ps

/-- The form in which an expression is shown. -/
def text : FilterSpec → String
  | all => "all members"
  | named name ps => s!"filter '{name}' [" ++ ", ".intercalate ps ++ "]"
  | literal ps => "[" ++ ", ".intercalate ps ++ "]"

/-- The expression selects a name. -/
def selects (spec : FilterSpec) (name : String) : Bool := Pattern.selects spec.patterns name

/-- The filter of a name that the project defines. -/
def ofName (filters : Filters) (name : String) : Logged (Except FilterError FilterSpec) :=
  match NamedFilter.chainFrom filters name with
  | .complete met => pure (.ok (named name (met.reverse.flatMap (·.patterns))))
  | .circular names => pure (.error (.circular names))
  | .dangling missing => do
    Logged.note .warn "filter inherits from an unknown filter; ignoring inheritance"
      [("filter", .plain name), ("missing", .plain missing)]
    pure (.ok (named name (((filters.get? name).map (·.patterns)).getD [])))

/-- What an expression stands for. -/
def ofExpression (filters : Filters) (expression : Option String) : Logged (Except FilterError FilterSpec) :=
  match Text.trim ((expression.map String.toList).getD []) with
  | [] => pure (.ok all)
  | '@' :: rest =>
    let name := String.ofList rest
    if filters.contains name then ofName filters name else pure (.error (.notFound name))
  | chars =>
    let name := String.ofList chars
    if filters.contains name then ofName filters name else pure (.ok (literal (Pattern.parseList name)))

end FilterSpec

end ScriptRunner
