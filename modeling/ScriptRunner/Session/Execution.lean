import ScriptRunner.Exec.Pass
import ScriptRunner.Watch.Loop

/-!
# Executions

A plan is carried out once (`Execution.once`), or once and then again whenever files of its members change
(`Execution.watched`).  A single pass ends with the code of its summary, a watch with that of its last pass; a run that
is interrupted before any watching has begun ends with `interruptedCode`.
-/

namespace ScriptRunner

/-- The world of an execution: the host of its passes, and what a watch needs besides.  `idle` and `settle` are the
sleeps of the watch loop and say whether the watch was stopped meanwhile. -/
structure Surroundings (σ τ : Type) extends Host σ τ where
  idle : σ → Bool × σ
  settle : σ → Bool × σ
  scan : Option Snapshot → σ → Snapshot × σ
  announce : List Change → Plan → σ → σ
  print : String → σ → σ

namespace Execution

/-- The exit code of an interrupted run. -/
def interruptedCode : Nat := 130

/-- The exit code of a run after a pass. -/
def exitCode (stopping : Bool) (summary : Summary) : Nat := if stopping then interruptedCode else summary.exitCode

variable {σ τ : Type}

/-- One pass over a plan, and its exit code. -/
def once (host : Host σ τ) (settings : RunSettings) (fuel : Nat) (plan : Plan) (x : σ) : Nat × σ :=
  let d := Pass.run host settings fuel plan x
  (exitCode (host.stopping d.world) d.pass.summary, d.world)

/-- The world of a watch whose passes run in the same surroundings. -/
def watchWorld (s : Surroundings σ τ) (settings : RunSettings) (fuel : Nat) : Watch.World σ where
  idle := s.idle
  settle := s.settle
  scan := s.scan
  note e x := s.tell [.entry e] x
  announce := s.announce
  run plan x :=
    let d := Pass.run s.toHost settings fuel plan x
    (d.pass.summary, d.world)

/-- What is said when the watching begins. -/
def greeting (members : Nat) : String := s!"Watching {members} member(s) for changes (Ctrl-C to stop)\n"

/-- A first pass, then passes for changes until the watch is stopped, and the exit code. -/
def watched (s : Surroundings σ τ) (settings : RunSettings) (fuel : Nat) (w : Watcher) (x : σ) : Nat × σ :=
  let env := watchWorld s settings fuel
  let (baseline, initial, x) := Watch.runInitial env w x
  if s.stopping x then (interruptedCode, x)
  else
    let x := s.print (greeting w.members.length) x
    let (state, x) := Watch.run env w fuel baseline x
    let x := env.note ⟨.info, "watch finished", [("passes", .number state.passes)]⟩ x
    ((state.last.getD initial).exitCode, x)

end Execution

end ScriptRunner
