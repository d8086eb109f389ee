import ScriptRunner.Config.Basic
import ScriptRunner.Exec.Outcome
import ScriptRunner.Watch.Change

/-!
# The watch loop

A watch compares snapshots with a baseline, the snapshot that the last pass was triggered from.  Each round sleeps,
scans, and, if something has changed, waits for the changes to settle, scans once more and runs a pass.  A stop is
noticed only while the loop sleeps, so a pass that has started always finishes.  Edits made during a pass count against
its baseline and trigger the next one.
-/

namespace ScriptRunner

/-- What is watched and what a change runs. -/
structure Watcher where
  members : List Member
  graph : Graph
  plan : Plan
  rerun : RerunScope
  options : ScanOptions

namespace Watcher

/-- A watcher of some members with their full plan. -/
def ofSettings (members : List Member) (deps : Dependencies) (plan : Plan) (s : WatchSettings) :
    Except Failure Watcher :=
  (ScanOptions.ofPatterns s.exclude s.useHash).map fun options =>
    ⟨members, Graph.ofMembers members deps, plan, s.rerun, options⟩

theorem ofSettings_eq_ok_iff {members : List Member} {deps : Dependencies} {plan : Plan} {s : WatchSettings}
    {w : Watcher} : ofSettings members deps plan s = .ok w ↔
      ∃ options, ScanOptions.ofPatterns s.exclude s.useHash = .ok options ∧
        w = ⟨members, Graph.ofMembers members deps, plan, s.rerun, options⟩ := by
  unfold ofSettings
  cases ScanOptions.ofPatterns s.exclude s.useHash with
  | error e => simp [Except.map]
  | ok options => simp [Except.map, eq_comm]

/-- The plan that some changes run. -/
def planFor (w : Watcher) (changes : List Change) : Plan :=
  match w.rerun with
  | .all => w.plan
  | .affected =>
    let affected := w.graph.withDependents (Change.members changes)
    w.plan.retain fun m => affected.contains m.name

def diff (w : Watcher) (old new : Snapshot) : List Change := Snapshot.diff w.members old new

end Watcher

namespace Watch

/-- The world of a watch.  `idle` sleeps between two polls and `settle` while changes settle; both say whether the
watch was stopped meanwhile. -/
structure World (σ : Type) where
  idle : σ → Bool × σ
  settle : σ → Bool × σ
  scan : Option Snapshot → σ → Snapshot × σ
  note : Log.Entry → σ → σ
  announce : List Change → Plan → σ → σ
  run : Plan → σ → Summary × σ

/-- The state between two rounds. -/
structure State where
  baseline : Snapshot
  passes : Nat := 0
  last : Option Summary := none

variable {σ : Type}

/-- A pass for some changes, which the snapshot `settled` shows. -/
def trigger (env : World σ) (w : Watcher) (s : State) (changes : List Change) (settled : Snapshot) (x : σ) :
    State × σ :=
  let plan := w.planFor changes
  let x := env.note ⟨.info, "change detected",
    [("events", .number changes.length), ("members", .plain (Text.quotedList (Change.members changes))),
      ("run", .number plan.memberCount)]⟩ x
  let x := env.announce changes plan x
  let (summary, x) := env.run plan x
  (⟨settled, s.passes + 1, some summary⟩, x)

/-- One round; nothing for the state if the watch was stopped. -/
def round (env : World σ) (w : Watcher) (s : State) (x : σ) : Option State × σ :=
  let (stopped, x) := env.idle x
  if stopped then (none, x)
  else
    let (current, x) := env.scan (some s.baseline) x
    let seen := w.diff s.baseline current
    if seen.isEmpty then (some { s with baseline := current }, x)
    else
      let x := env.note ⟨.debug, "changes detected; debouncing", [("events", .number seen.length)]⟩ x
      let (stopped, x) := env.settle x
      if stopped then (none, x)
      else
        let (settled, x) := env.scan (some current) x
        let changes := w.diff s.baseline settled
        if changes.isEmpty then
          (some { s with baseline := settled }, env.note ⟨.debug, "changes cancelled out during debounce", []⟩ x)
        else
          let (s, x) := trigger env w s changes settled x
          (some s, x)

/-- Rounds until the watch is stopped, at most `fuel` of them. -/
def rounds (env : World σ) (w : Watcher) : Nat → State → σ → State × σ
  | 0, s, x => (s, x)
  | fuel + 1, s, x =>
    match round env w s x with
    | (none, x) => (s, x)
    | (some s, x) => rounds env w fuel s x

/-- The loop from a baseline. -/
def run (env : World σ) (w : Watcher) (fuel : Nat) (baseline : Snapshot) (x : σ) : State × σ :=
  let x := env.note ⟨.info, "watching for changes",
    [("members", .number w.members.length), ("files", .number baseline.size), ("rerun", .plain w.rerun.name)]⟩ x
  let (s, x) := rounds env w fuel ⟨baseline, 0, none⟩ x
  (s, env.note ⟨.info, "watch stopped", [("passes", .number s.passes)]⟩ x)

/-- The first pass over the whole plan, and the baseline taken before it. -/
def runInitial (env : World σ) (w : Watcher) (x : σ) : Snapshot × Summary × σ :=
  let (baseline, x) := env.scan none x
  let (summary, x) := env.run w.plan x
  (baseline, summary, x)

end Watch

end ScriptRunner
