import ScriptRunner.Order.Graph

/-!
# Layers

A layering takes the positions of a graph in rounds: first those that depend on nothing, then, round by round, those
whose last dependency was taken in the round before.  A counter for each position holds the number of its dependencies
that have not been taken.  A graph with a cycle leaves positions over.
-/

namespace ScriptRunner.Graph

/-- The state between two rounds. -/
structure Layering where
  /-- For each position, how many of its dependencies have not been taken. -/
  waiting : List Nat
  /-- The layer to be taken next, ascending. -/
  current : List Nat
  /-- The layers taken so far. -/
  layers : List (List Nat)
  deriving DecidableEq, Repr

/-- The start: every dependency is open, and the positions without any are next. -/
def Layering.start (g : Graph) : Layering :=
  let waiting := g.inDegrees
  ⟨waiting, (List.range g.size).filter fun i => waiting.getD i 0 = 0, []⟩

/-- The edges that lead from a layer to other positions, in the order in which they are followed. -/
def edgesFrom (g : Graph) (layer : List Nat) : List (Nat × Nat) :=
  layer.flatMap fun i => ((g.dependents i).filter (· ≠ i)).map fun d => (i, d)

/-- Follows one edge: its end waits for one dependency less, and is ready when that was the last one. -/
def countDown (state : List Nat × List Nat) (edge : Nat × Nat) : List Nat × List Nat :=
  let left := state.1.getD edge.2 0 - 1
  (state.1.set edge.2 left, if left = 0 then state.2 ++ [edge.2] else state.2)

/-- One round: takes the current layer and finds the next. -/
def Layering.round (g : Graph) (s : Layering) : Layering :=
  let (waiting, ready) := (g.edgesFrom s.current).foldl countDown (s.waiting, [])
  ⟨waiting, ready.mergeSort fun a b => decide (a ≤ b), s.layers ++ [s.current]⟩

/-- Rounds until nothing is ready, at most `fuel` of them. -/
def Layering.run (g : Graph) : Nat → Layering → Layering
  | 0, s => s
  | fuel + 1, s => if s.current.isEmpty then s else Layering.run g fuel (s.round g)

/-- The layering of a graph.  No layer is empty, so there are at most as many rounds as positions. -/
def layering (g : Graph) : Layering := Layering.run g g.size (Layering.start g)

/-- How many positions a layering has taken. -/
def Layering.taken (s : Layering) : Nat := s.layers.flatten.length

/-- The layers of a graph, or the names on its cycles. -/
def layers (g : Graph) : Except (List String) (List (List Nat)) :=
  let s := g.layering
  if s.taken < g.size then
    let cycle := g.cycleNames
    .error (if cycle.isEmpty then ((List.range g.size).filter fun i => 0 < s.waiting.getD i 0).map g.nameAt
      else cycle)
  else .ok s.layers

end ScriptRunner.Graph
