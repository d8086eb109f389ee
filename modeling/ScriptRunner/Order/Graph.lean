import ScriptRunner.Remaining
import ScriptRunner.Workspace.Member

/-!
# Dependency graphs

The nodes of a graph are the positions of a member list; an edge goes from a dependency to its dependent.  Of members
with one name the last position stands for the name, and names outside the list have no edges.  `closure` collects
what can be reached from some positions, `onCycle` the positions that can be reached from themselves.
-/

namespace ScriptRunner

/-- Edges between the positions of a list of names. -/
structure Graph where
  names : List String
  edges : List (Nat × Nat)
  deriving DecidableEq, Repr

namespace Graph

/-- The last position of each name. -/
def positions (names : List String) : SortedMap String Nat :=
  SortedMap.ofList names.zipIdx

/-- The edges that one entry of a dependency map gives. -/
def edgesOf (index : SortedMap String Nat) (dependent : String) (dependencies : List String) : List (Nat × Nat) :=
  match index.get? dependent with
  | none => []
  | some target => (dependencies.filterMap index.get?).map fun source => (source, target)

/-- The graph of a member list. -/
def ofMembers (members : List Member) (deps : Dependencies) : Graph :=
  let names := members.map (·.name)
  let index := positions names
  ⟨names, (deps.entries.flatMap fun e => edgesOf index e.1 e.2).eraseDups⟩

/-- The number of positions. -/
def size (g : Graph) : Nat := g.names.length

/-- The positions that depend on `i`. -/
def dependents (g : Graph) (i : Nat) : List Nat := (g.edges.filter (·.1 = i)).map (·.2)

/-- The positions that `i` depends on. -/
def dependencies (g : Graph) (i : Nat) : List Nat := (g.edges.filter (·.2 = i)).map (·.1)

/-- How many positions each position depends on. -/
def inDegrees (g : Graph) : List Nat := (List.range g.size).map fun i => (g.dependencies i).length

/-- The positions seen once the queue is empty: each position taken from it is seen, and its dependents join it. -/
def spread (g : Graph) (seen : List Nat) : List Nat → List Nat
  | [] => seen
  | i :: queue =>
    if _ : i ∈ seen ∨ g.size ≤ i then g.spread seen queue
    else g.spread (i :: seen) (queue ++ (g.dependents i).filter fun d => !(i :: seen).contains d)
termination_by queue => ((remaining (List.range g.size) seen).length, queue.length)
decreasing_by
  · exact Prod.Lex.right _ (by simp)
  · rename_i h
    rw [not_or, Nat.not_le] at h
    exact Prod.Lex.left _ _ (length_remaining_lt (by simp) (List.mem_range.2 h.2) h.1 (by simp))

/-- The positions that can be reached from `roots` along edges, ascending. -/
def closure (g : Graph) (roots : List Nat) : List Nat :=
  let seen := g.spread [] roots
  (List.range g.size).filter seen.contains

/-- The name at a position. -/
def nameAt (g : Graph) (i : Nat) : String := g.names.getD i ""

/-- The names of the members that depend on some of `roots`, directly or not, and of `roots` themselves. -/
def withDependents (g : Graph) (roots : List String) : List String :=
  (g.closure (roots.filterMap (positions g.names).get?)).map g.nameAt

/-- The names that a name depends on. -/
def dependenciesOf (g : Graph) (name : String) : List String :=
  match (positions g.names).get? name with
  | none => []
  | some i => (g.dependencies i).map g.nameAt

/-- A position that can be reached from itself along at least one edge. -/
def onCycle (g : Graph) (i : Nat) : Bool := (g.closure (g.dependents i)).contains i

/-- The names on cycles, in ascending order. -/
def cycleNames (g : Graph) : List String :=
  (((List.range g.size).filter g.onCycle).map g.nameAt).mergeSort fun a b => decide (a ≤ b)

end Graph

end ScriptRunner
