import ScriptRunner.Files.Edit
import ScriptRunner.Watch.Loop

/-!
# Rehearsals of a watch

A watch over a tree to which edits are made step by step: one step at the end of each pass, and one whenever a poll
has found nothing.  A poll that finds nothing when no step is left stops the watch.
-/

namespace ScriptRunner.Watch

namespace Rehearsal

/-- What a rehearsal records. -/
inductive Record where
  | announced (changes : List Change) (plan : Plan)
  | ran (members : List String)
  | applied (step : Nat) (duringPass : Bool)

/-- The world of a rehearsal. -/
structure Stage where
  tree : Tree
  /-- Where the paths of edits start. -/
  home : List String
  /-- The steps to come, with their numbers. -/
  steps : List (Nat × List Edit)
  failing : List String
  /-- Nothing has happened since the last poll began. -/
  calm : Bool := false
  records : List Record := []

variable (w : Watcher)

/-- Applies the next step, if there is one. -/
def Stage.advance (x : Stage) (duringPass : Bool) : Stage :=
  match x.steps with
  | [] => x
  | (i, edits) :: rest =>
    { x with tree := Edit.applyAll x.home x.tree edits, steps := rest, records := x.records ++ [.applied i duringPass] }

/-- The tally of a pass in which the failing members fail. -/
def Stage.tally (x : Stage) (plan : Plan) : Summary :=
  plan.order.foldl (fun s m =>
    if x.failing.contains m.name then { s with failed := s.failed + 1 } else { s with success := s.success + 1 }) {}

/-- The world of a rehearsal; a silent one does not record announcements. -/
def world (silent : Bool) : World Stage where
  idle x :=
    if x.calm then (x.steps.isEmpty, { x.advance false with calm := false })
    else (false, { x with calm := true })
  settle x := (false, { x with calm := false })
  scan previous x := ((Snapshot.take x.tree w.members w.options previous).value, x)
  note _ x := x
  announce changes plan x := if silent then x else { x with records := x.records ++ [.announced changes plan] }
  run plan x :=
    let x := { x with records := x.records ++ [Record.ran (plan.order.map Member.name)], calm := false }
    (x.tally plan, x.advance true)

/-- Four polls for each step, and some more. -/
def enoughRounds (x : Stage) : Nat := 4 * x.steps.length + 8

/-- A whole watch: the first pass if `initial` says so, then the loop. -/
def perform (silent initial : Bool) (x : Stage) : Option Summary × State × Stage :=
  let env := world w silent
  if initial then
    let (baseline, summary, x) := runInitial env w x
    let (s, x) := run env w (enoughRounds x) baseline x
    (some summary, s, x)
  else
    let (baseline, x) := env.scan none x
    let (s, x) := run env w (enoughRounds x) baseline x
    (none, s, x)

end Rehearsal

end ScriptRunner.Watch
