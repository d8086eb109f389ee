import ScriptRunner.Files.Path
import ScriptRunner.SortedMap

/-!
# Members

A member is one package of a workspace.  `owner?` gives the deepest member whose directory holds a path; of members
with equally deep directories the last one counts.
-/

namespace ScriptRunner

/-- One package of a workspace. -/
structure Member where
  name : String
  /-- The directory, seen from the top of the workspace. -/
  path : String
  /-- The directory, seen from the top of the file tree. -/
  dir : String
  manifest : Option String := none
  lockfile : Option String := none
  deriving DecidableEq, Repr, Inhabited

/-- For each member, the names that it depends on. -/
abbrev Dependencies := SortedMap String (List String)

/-- The members of a workspace and what they depend on. -/
structure Workspace where
  root : String
  members : List Member
  dependencies : Dependencies

namespace Member

/-- The components of the member's directory. -/
def place (m : Member) : List String := Path.components m.dir

/-- The deeper of two members that hold a path; of equally deep ones the second. -/
private def deeper (best : Option Member) (m : Member) : Option Member :=
  match best with
  | some b => if m.place.length < b.place.length then some b else some m
  | none => some m

/-- The deepest member whose directory holds the path of some components. -/
def ownerOf? (members : List Member) (path : List String) : Option Member :=
  (members.filter fun m => m.place.isPrefixOf path).foldl deeper none

theorem ownerOf?_nil (path : List String) : ownerOf? [] path = none := rfl

/-- A last member is the owner if it holds the path and the owner among the others is no deeper. -/
theorem ownerOf?_concat (members : List Member) (m : Member) (path : List String) :
    ownerOf? (members ++ [m]) path =
      if m.place.isPrefixOf path then
        match ownerOf? members path with
        | some b => if m.place.length < b.place.length then some b else some m
        | none => some m
      else ownerOf? members path := by
  unfold ownerOf?
  rw [List.filter_append, List.foldl_append]
  cases h : m.place.isPrefixOf path <;> simp [h, deeper]

/-- The deepest member whose directory holds the path. -/
def owner? (members : List Member) (path : String) : Option Member := ownerOf? members (Path.components path)

end Member

/-- The member of a name. -/
def Workspace.member? (w : Workspace) (name : String) : Option Member := w.members.find? (·.name = name)

end ScriptRunner
