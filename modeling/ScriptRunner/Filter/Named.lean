import ScriptRunner.Remaining
import ScriptRunner.SortedMap

/-!
# Named filters

A named filter has patterns of its own and may extend another filter.  `chainFrom` walks from a filter to its last
ancestor: the walk ends at a filter that extends none, at a name without a filter, or at a name met before.  It ends
because fewer and fewer names have not been met.
-/

namespace ScriptRunner

/-- Patterns under a name, after those of the filter that this one extends. -/
structure NamedFilter where
  patterns : List String := []
  parent : Option String := none
  description : Option String := none
  deriving DecidableEq, Repr, Inhabited

/-- The named filters of a project. -/
abbrev Filters := SortedMap String NamedFilter

namespace NamedFilter

/-- How a walk along `extends` ends. -/
inductive Chain where
  /-- At a filter without parent; the filters of the walk, the first one first. -/
  | complete (filters : List NamedFilter)
  /-- At a name that no filter has. -/
  | dangling (missing : String)
  /-- At a name met before; the names of the walk, that one once more at the end. -/
  | circular (names : List String)
  deriving DecidableEq, Repr

private theorem mem_keys_of_get? {filters : Filters} {name : String} {f : NamedFilter}
    (h : filters.get? name = some f) : name ∈ filters.keys :=
  List.mem_map.2 ⟨_, SortedMap.get?_eq_some_iff.1 h, rfl⟩

/-- Walks on from `name`, with the names and filters met so far. -/
def walk (filters : Filters) (names : List String) (met : List NamedFilter) (name : String) : Chain :=
  if _ : name ∈ names then .circular (names ++ [name])
  else match _ : filters.get? name with
    | none => .dangling name
    | some f =>
      match f.parent with
      | none => .complete (met ++ [f])
      | some next => walk filters (names ++ [name]) (met ++ [f]) next
termination_by (remaining filters.keys names).length
decreasing_by
  exact length_remaining_lt (by simp) (mem_keys_of_get? (by assumption)) (by assumption) (by simp)

/-- The walk from a name. -/
def chainFrom (filters : Filters) (name : String) : Chain := walk filters [] [] name

end NamedFilter

end ScriptRunner
