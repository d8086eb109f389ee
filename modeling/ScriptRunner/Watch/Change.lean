import ScriptRunner.Order.Plan
import ScriptRunner.Watch.Snapshot

/-!
# Changes between snapshots

A change is a path that only one of two snapshots has, or whose stamps differ in content.  Each change belongs to the
deepest member that holds the path; paths that no member holds are left out.
-/

namespace ScriptRunner

inductive ChangeKind where
  | created
  | modified
  | deleted
  deriving DecidableEq, Repr

def ChangeKind.name : ChangeKind → String
  | created => "created"
  | modified => "modified"
  | deleted => "deleted"

/-- A change of one file. -/
structure Change where
  path : List String
  kind : ChangeKind
  member : Member
  deriving DecidableEq, Repr

namespace Snapshot

/-- How a path that the new snapshot has differs from the old one. -/
def kindOf? (old : Snapshot) (path : List String) (stamp : Stamp) : Option ChangeKind :=
  match old.get? path with
  | none => some .created
  | some before => if before.sameContent stamp then none else some .modified

/-- The change of a path, if some member holds it. -/
def changeAt? (members : List Member) (path : List String) (kind : ChangeKind) : Option Change :=
  (Member.ownerOf? members path).map fun m => ⟨path, kind, m⟩

/-- The changes from one snapshot to another, in the order of their paths. -/
def diff (members : List Member) (old new : Snapshot) : List Change :=
  let present := new.entries.filterMap fun e => (kindOf? old e.1 e.2).bind (changeAt? members e.1)
  let gone := (old.entries.filter fun e => !new.contains e.1).filterMap fun e => changeAt? members e.1 .deleted
  (present ++ gone).mergeSort fun a b => (compare a.path b.path).isLE

end Snapshot

/-- The path of a change as the first member of that directory spells it. -/
def Change.pathText (members : List Member) (c : Change) : String :=
  let speller := (members.find? fun m => m.place = c.member.place).getD c.member
  (c.path.drop speller.place.length).foldl Path.join speller.dir

/-- The names of the changed members, each once, in the order of the changes. -/
def Change.members (changes : List Change) : List String := (changes.map (·.member.name)).eraseDups

/-- What a watch says before it runs members again. -/
def Change.announcement (changes : List Change) (script : String) (plan : Plan) : String :=
  "\nChanges in " ++ ", ".intercalate (Change.members changes) ++ "; re-running '" ++ script ++ "' in " ++
    toString plan.memberCount ++ " member(s)\n"

end ScriptRunner
