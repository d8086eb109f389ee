import ScriptRunner.Exec.Pass

/-!
# Rehearsals

A pass against tables and replies that are given beforehand.  A script that no rule speaks of succeeds and says what
was run.
-/

namespace ScriptRunner

namespace Rehearsal

/-- The reply to scripts that contain a text. -/
structure Rule where
  needle : String
  reply : Reply
  /-- The run is stopping from this call on. -/
  stops : Bool := false
  deriving DecidableEq, Repr

/-- A stage: what is given, and what has happened. -/
structure Stage where
  tables : SortedMap String (Except TableError (Option ScriptTable))
  rules : List Rule
  /-- How long every call takes. -/
  each : Duration := ⟨0⟩
  /-- How many workers can be started. -/
  startable : Nat
  stopping : Bool := false
  calls : List Call := []
  told : List Pass.Word := []

/-- The rule for a script. -/
def ruleFor (rules : List Rule) (line : String) : Rule :=
  (rules.find? fun r => Text.contains r.needle line).getD
    ⟨"", .output ⟨some 0, "ran: " ++ line ++ "\n", "", false⟩, false⟩

/-- The script of a call. -/
def lineOf (c : Call) : String := c.argv.getLastD ""

def host : Host Stage Reply where
  now _ := ⟨0⟩
  stopping stage := stage.stopping
  startable _ stage := stage.startable
  tell ws stage := { stage with told := stage.told ++ ws }
  table m stage :=
    (((stage.tables.get? m.dir).getD (.error ["no manifest registered for " ++ m.dir])), stage)
  begin call stage :=
    let rule := ruleFor stage.rules (lineOf call)
    (rule.reply, { stage with calls := stage.calls ++ [call], stopping := stage.stopping || rule.stops })
  reply? reply stage := (some (reply, stage.each), stage)
  wait stage := stage

/-- Moves of a worker for each member, and the moves between groups. -/
def enoughRounds (plan : Plan) : Nat := plan.groups.foldl (fun n g => n + 5 * g.length + 6) 2

/-- A pass over a plan on a stage. -/
def perform (s : RunSettings) (plan : Plan) (stage : Stage) : Pass × Stage :=
  let d := Pass.run host s (enoughRounds plan) plan stage
  (d.pass, d.world)

/-- The report events that the stage was told. -/
def Stage.events (stage : Stage) : List Report.Event :=
  stage.told.filterMap fun w => match w with | .event e => some e | .entry _ => none

end Rehearsal

end ScriptRunner
