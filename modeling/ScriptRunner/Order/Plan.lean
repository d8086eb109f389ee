import ScriptRunner.Log.Entry
import ScriptRunner.Order.Layers

/-!
# Plans

A plan runs its groups one after another and the members of a group side by side.  `Plan.order` gives the members one
after another; `Plan.retain` drops members and the groups that become empty.
-/

namespace ScriptRunner

/-- Members in groups that run one after another. -/
structure Plan where
  groups : List (List Member)
  deriving DecidableEq, Repr

namespace Plan

/-- The members in the order of their groups. -/
def order (p : Plan) : List Member := p.groups.flatten

def memberCount (p : Plan) : Nat := p.order.length

/-- The plan of the members that satisfy `keep`, without empty groups. -/
def retain (keep : Member → Bool) (p : Plan) : Plan :=
  ⟨(p.groups.map (·.filter keep)).filter fun g => !g.isEmpty⟩

/-- All members in one group, in their order. -/
def flat (members : List Member) : Plan := ⟨if members.isEmpty then [] else [members]⟩

/-- The plan in which every member comes after those that it depends on; the names on cycles if there is none. -/
def layered (members : List Member) (deps : Dependencies) : Except (List String) Plan :=
  ((Graph.ofMembers members deps).layers).map fun ls => ⟨ls.map (·.filterMap (members[·]?))⟩

/-- The plan of a member list, with dependencies or without. -/
def ofMembers (members : List Member) (deps : Dependencies) (ordered : Bool) :
    Logged (Except (List String) Plan) :=
  if ordered then
    match layered members deps with
    | .ok plan => do
      Logged.note .debug "computed dependency order"
        [("members", .number plan.memberCount), ("groups", .number plan.groups.length)]
      pure (.ok plan)
    | .error names => do
      Logged.note .warn "dependency cycle between workspace members"
        [("members", .plain (Text.quotedList names))]
      pure (.error names)
  else pure (.ok (flat members))

/-- The message about a cycle. -/
def cycleMessage (names : List String) : String := "dependency cycle detected between: " ++ ", ".intercalate names

end Plan

end ScriptRunner
