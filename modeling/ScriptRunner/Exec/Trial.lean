import ScriptRunner.Exec.Runner
import ScriptRunner.Files.Disk

/-!
# Trials of a runner

Single calls on one runner, one after another, each until its output is there.  A call may be interrupted as soon as a
file exists.
-/

namespace ScriptRunner.Trial

/-- An interrupt that waits for a file. -/
structure Cue where
  path : String
  signal : Signal
  deriving DecidableEq, Repr

/-- The file of a cue exists. -/
def Cue.isDue (c : Cue) (r : Runner) : Bool :=
  match r.kernel.tree.resolve Disk.home c.path with
  | .ok _ => true
  | .error _ => false

/-- Waits for a call under way, and yields its output and how many groups its cue has signalled.  A call that nothing
can bring to its end has no output. -/
def finish (id : Nat) : Nat → Option Cue → Option Nat → Runner → Option Output × Option Nat × Runner
  | 0, _, signalled, r => (none, signalled, r)
  | fuel + 1, cue, signalled, r =>
    match r.poll id with
    | (some (out, _), r) => (some out, signalled, r)
    | (none, r) =>
      let (moved, r) := r.proceed
      match cue.filter (·.isDue r) with
      | some c =>
        let (count, r) := r.interrupt c.signal
        finish id fuel none (some count) r
      | none =>
        if moved then finish id fuel cue signalled r
        else
          let later := r.skip none
          if later.kernel.clock = r.kernel.clock then (none, signalled, r) else finish id fuel cue signalled later

/-- More looks than any call takes. -/
def enoughLooks : Nat := 100000000

/-- One call from its start to its output. -/
def perform (r : Runner) (c : Call) (cue : Option Cue) : Except SpawnFault (Option Output × Option Nat) × Runner :=
  match r.begin c with
  | (.error e, r) => (.error e, r)
  | (.ok id, r) =>
    let (out, signalled, r) := finish id enoughLooks cue none r
    (.ok (out, signalled), r)

/-- A runner on a machine with a file tree. -/
def runnerOn (tree : Tree) : Runner :=
  { kernel := { tree := tree, clock := Disk.startTime }
    environment := Disk.environment }

end ScriptRunner.Trial
