import ScriptRunner.Exec.Live
import ScriptRunner.Exec.Pass
import ScriptRunner.Machine.Kernel
import ScriptRunner.Shell.Evaluation

/-!
# Running programs

A runner starts the programs of calls as processes of a machine, each in a group of its own, and collects what they
write.  A call with a time limit is looked at every `pollInterval`; when the limit is over, its group is killed.  After
a signal, processes that are left may keep an output open: the runner waits for it no longer than `drainGrace`, and
counts as nothing what it has not got by then.
-/

namespace ScriptRunner

/-- Why a program did not start. -/
inductive SpawnFault where
  | emptyCall
  /-- The run is stopping. -/
  | interrupted
  /-- A NUL in a word or in the directory. -/
  | nulByte
  | file (f : FileFault)
  deriving DecidableEq, Repr

def SpawnFault.message : SpawnFault → String
  | emptyCall => "empty argv"
  | interrupted => "run interrupted"
  | nulByte => "nul byte found in provided data"
  | file f => f.message

namespace Runner

/-- How often a call with a limit is looked at. -/
def pollInterval : Nat := 10000000

/-- How long an output is waited for after a signal. -/
def drainGrace : Nat := 1000000000

/-- How far a call has come. -/
inductive Stage where
  /-- The process runs, and is looked at next at a time. -/
  | running (nextPoll : Nat)
  /-- The process is over, and its outputs are waited for. -/
  | draining (how : Ending) (timedOut : Bool) (since : Nat)
  deriving Repr

/-- A call under way. -/
structure Job where
  process : Nat
  began : Nat
  limit : Option Nat
  stage : Stage
  deriving Repr

end Runner

/-- A machine with the calls under way on it. -/
structure Runner where
  kernel : Kernel
  live : Live := {}
  jobs : List Runner.Job := []
  environment : List (String × String) := []

namespace Runner

/-- The directory of a call, if the system can go there. -/
def directoryOf (t : Tree) (path : String) : Except SpawnFault (List String) :=
  match t.resolve [] path with
  | .ok (place, .dir _) => .ok place
  | .ok _ => .error (.file .notDirectory)
  | .error e => .error (.file e)

/-- The program of a call and its directory. -/
def programOf (r : Runner) (c : Call) : Except SpawnFault (Program × List String) := do
  if c.argv.isEmpty then throw .emptyCall
  if r.live.stopping then throw .interrupted
  if (c.cwd :: c.argv).any fun w => w.toList.contains '\x00' then throw .nulByte
  let cwd ← directoryOf r.kernel.tree c.cwd
  match Shell.program? r.kernel.tree cwd c.argv r.environment with
  | .ok p => pure (p, cwd)
  | .error e => throw (.file e)

/-- Starts the program of a call. -/
def begin (r : Runner) (c : Call) : Except SpawnFault Nat × Runner :=
  match r.programOf c with
  | .error e => (.error e, r)
  | .ok (p, cwd) =>
    let (id, kernel) := r.kernel.launch p cwd
    match r.live.spawn? id with
    | none => (.error .interrupted, r)
    | some live =>
      let now := r.kernel.clock
      let job : Job := ⟨id, now, c.timeout.map (·.nanos), .running now⟩
      (.ok id, { r with kernel := kernel, live := live, jobs := r.jobs ++ [job] })

def setStage (r : Runner) (id : Nat) (stage : Stage) : Runner :=
  { r with jobs := r.jobs.map fun j => if j.process = id then { j with stage := stage } else j }

/-- The process of a call is over. -/
def conclude (r : Runner) (id : Nat) (how : Ending) (timedOut : Bool) : Runner :=
  let r := { r with kernel := r.kernel.reap id, live := r.live.release id }
  r.setStage id (.draining how timedOut r.kernel.clock)

/-- Looks at the process of a call. -/
def look (r : Runner) (j : Job) (nextPoll : Nat) : Runner :=
  let id := j.process
  match j.limit with
  | none =>
    match r.kernel.ending? id with
    | some how => r.conclude id how false
    | none => r
  | some limit =>
    if r.kernel.clock < nextPoll then r
    else match r.kernel.ending? id with
      | some how => r.conclude id how false
      | none =>
        if limit ≤ r.kernel.clock - j.began then
          let killed := { r with kernel := r.kernel.signal .kill (.group id) }
          killed.conclude id ((killed.kernel.ending? id).getD (.signal .kill)) true
        else r.setStage id (.running (r.kernel.clock + pollInterval))

/-- What a call has written, each output once it is closed or its time is over. -/
def drained (r : Runner) (j : Job) (how : Ending) (timedOut : Bool) (since : Nat) : Option Output :=
  let signalled := timedOut || how.exitCode?.isNone
  let out := Kernel.outputOf j.process
  let err := Kernel.errorsOf j.process
  let now := r.kernel.clock
  let outOpen := r.kernel.sinkIsOpen out
  let errOpen := r.kernel.sinkIsOpen err
  let errDeadline := since + drainGrace + if outOpen then drainGrace else 0
  let outReady := !outOpen || (signalled && since + drainGrace ≤ now)
  let errReady := !errOpen || (signalled && errDeadline ≤ now)
  let text (isOpen : Bool) (sink : Nat) : String := if isOpen then "" else Text.decodeLossy (r.kernel.sinkData sink)
  if outReady && errReady then
    some ⟨how.exitCode?.map Int.ofNat, text outOpen out, text errOpen err, timedOut⟩
  else none

/-- The output of a call, once there is nothing left to wait for. -/
def poll (r : Runner) (id : Nat) : Option (Output × Duration) × Runner :=
  match r.jobs.find? (·.process = id) with
  | none => (none, r)
  | some j =>
    let r := match j.stage with
      | .running nextPoll => r.look j nextPoll
      | .draining _ _ _ => r
    match r.jobs.find? (·.process = id) with
    | some { stage := .draining how timedOut since, .. } =>
      match r.drained j how timedOut since with
      | some out =>
        (some (out, ⟨r.kernel.clock - j.began⟩), { r with jobs := r.jobs.filter (·.process ≠ id) })
      | none => (none, r)
    | _ => (none, r)

/-- Sends a signal to all live scripts and refuses to start others; yields how many there are. -/
def interrupt (r : Runner) (s : Signal) : Nat × Runner :=
  let (live, groups) := r.live.interrupt
  (groups.length, { r with
    live := live
    kernel := groups.foldl (fun k group => k.signal s (.group group)) r.kernel })

/-- The moments at which a call has to be looked at. -/
def timers (r : Runner) : List Nat :=
  r.jobs.flatMap fun j =>
    match j.stage with
    | .running nextPoll => if j.limit.isSome then [nextPoll] else []
    | .draining _ _ since => [since + drainGrace, since + 2 * drainGrace]

/-- How many rounds the processes go on before somebody looks. -/
def slice : Nat := 4000

/-- Lets the processes go on until they are blocked, but not for too long; says whether they did anything. -/
def proceed (r : Runner) : Bool × Runner :=
  let kernel := r.kernel.settle slice
  (kernel.clock ≠ r.kernel.clock, { r with kernel := kernel })

/-- Goes on to the next moment at which something happens, but not beyond `limit`. -/
def skip (r : Runner) (limit : Option Nat) : Runner :=
  let now := r.kernel.clock
  let moments := (r.timers ++ r.kernel.nextWake?.toList ++ limit.toList).filter (now < ·)
  match moments.min? with
  | some time => { r with kernel := r.kernel.wake time }
  | none => r

end Runner

end ScriptRunner
