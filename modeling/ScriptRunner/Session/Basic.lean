import ScriptRunner.Exec.Runner
import ScriptRunner.Files.Edit
import ScriptRunner.Repository.Basic
import ScriptRunner.Session.Execution
import ScriptRunner.Manifest.File

/-!
# Sessions

A session is a run on a machine together with what goes on around it: somebody watches the output and the files, edits
files and presses Ctrl-C.  What that person does is a list of cues, which fire one after another, each as soon as what
it waits for has come about.  `Session.host` and `Session.surroundings` make a session the world of an execution.
-/

namespace ScriptRunner

namespace Session

/-- What a cue waits for. -/
inductive Moment where
  /-- A text stands in the output so often. -/
  | printed (text : String) (times : Nat)
  /-- A text stands in the log so often. -/
  | logged (text : String) (times : Nat)
  | fileExists (path : String)
  /-- So many passes are over. -/
  | passesOver (count : Nat)
  /-- So many nanoseconds have gone by since the cue before. -/
  | later (nanos : Nat)
  deriving Repr

/-- Something that is done from outside at a moment. -/
structure Cue where
  moment : Moment
  edits : List Edit := []
  interrupts : Bool := false
  deriving Repr

end Session

structure Session where
  runner : Runner
  repository : Option Repository := none
  /-- The directory that the run is started in. -/
  cwd : List String
  /-- Up to which level log entries are kept. -/
  level : Log.Level := .warn
  /-- What was printed, the last piece first. -/
  printed : List String := []
  /-- The log entries, the last one first. -/
  logged : List Log.Entry := []
  cues : List Session.Cue := []
  /-- When the last cue fired. -/
  lastCue : Nat
  /-- How often Ctrl-C was pressed. -/
  interrupts : Nat := 0
  passesOver : Nat := 0

namespace Session

def tree (s : Session) : Tree := s.runner.kernel.tree

def clock (s : Session) : Nat := s.runner.kernel.clock

/-- Everything that was printed. -/
def output (s : Session) : String := String.join s.printed.reverse

/-- The lines of the log. -/
def logLines (s : Session) : List String := s.logged.reverse.map Log.Entry.line

def print (s : Session) (text : String) : Session := { s with printed := text :: s.printed }

/-- Keeps an entry if its level shows. -/
def log (s : Session) (e : Log.Entry) : Session :=
  if s.level.shows e.level then { s with logged := e :: s.logged } else s

def logAll (s : Session) (es : List Log.Entry) : Session := es.foldl log s

/-! ### Cues -/

/-- What a cue waits for has come about. -/
def isDue (s : Session) : Moment → Bool
  | .printed text times => times ≤ Text.occurrences text.toList s.output.toList
  | .logged text times => times ≤ Text.occurrences text.toList ("\n".intercalate s.logLines).toList
  | .fileExists path => (s.tree.resolve s.cwd path).toBool
  | .passesOver count => count ≤ s.passesOver
  | .later nanos => s.lastCue + nanos ≤ s.clock

/-- Ctrl-C: the first one asks the scripts to stop, every later one kills them. -/
def interrupt (s : Session) : Session :=
  let (signal, name) : Signal × String := if s.interrupts = 0 then (.interrupt, "Interrupt") else (.kill, "Kill")
  let (count, runner) := s.runner.interrupt signal
  { s with runner := runner, interrupts := s.interrupts + 1 }.log
    ⟨.info, "interrupt received", [("signalled", .number count), ("signal", .plain name)]⟩

/-- Does what a cue asks for. -/
def fire (s : Session) (c : Cue) : Session :=
  let tree := Edit.applyAll s.cwd s.tree c.edits
  let s := { s with
    runner := { s.runner with kernel := { s.runner.kernel with tree := tree } }
    lastCue := s.clock }
  if c.interrupts then s.interrupt else s

/-- Fires cues until one has to wait. -/
def attendTo : List Cue → Session → Session
  | [], s => { s with cues := [] }
  | c :: rest, s => if s.isDue c.moment then attendTo rest (s.fire c) else { s with cues := c :: rest }

/-- Fires the cues that are due. -/
def attend (s : Session) : Session := attendTo s.cues s

/-- The time that the next cue waits for, if it waits for one. -/
def nextCue? (s : Session) : Option Nat :=
  s.cues.head?.bind fun c =>
    match c.moment with
    | .later nanos => some (s.lastCue + nanos)
    | _ => none

/-! ### Time -/

/-- Lets the scripts go on, or else goes on to the next moment, but not beyond `limit`. -/
def advance (s : Session) (limit : Option Nat) : Session :=
  let (moved, runner) := s.runner.proceed
  let s := { s with runner := runner }
  if moved then s
  else { s with runner := s.runner.skip ((limit.toList ++ s.nextCue?.toList).min?) }

/-- More steps than any sleep takes. -/
def enoughSteps : Nat := 100000000

/-- Sleeps until a time, or until Ctrl-C is pressed. -/
def restUntil (time : Nat) : Nat → Session → Session
  | 0, s => s
  | fuel + 1, s =>
    let s := s.attend
    if 0 < s.interrupts || time ≤ s.clock then s else restUntil time fuel (s.advance (some time))

/-- Sleeps, and says whether Ctrl-C has been pressed. -/
def rest (s : Session) (nanos : Nat) : Bool × Session :=
  let s := restUntil (s.clock + nanos) enoughSteps s
  (0 < s.interrupts, s)

/-! ### The world of an execution -/

/-- How many processors there are. -/
def processors : Nat := 8

/-- Takes in what a pass tells. -/
def hear (verbose : Bool) (s : Session) : Pass.Word → Session
  | .entry e => s.log e
  | .event e =>
    let s := s.print (Console.write verbose e)
    match e with
    | .runFinished _ _ => { s with passesOver := s.passesOver + 1 }
    | _ => s

/-- A call: the number of its process, or why it did not start. -/
abbrev Handle := Except SpawnFault Nat

/-- A session as the host of passes. -/
def host (verbose : Bool) : Host Session Handle where
  now s := ⟨s.clock⟩
  stopping s := s.runner.live.stopping
  startable wanted _ := wanted
  tell ws s := ws.foldl (hear verbose) s
  table m s := (Manifest.readScripts s.tree m.dir, s)
  begin call s :=
    let (handle, runner) := s.runner.begin call
    let s := { s with runner := runner }
    match handle with
    | .ok id =>
      (handle, s.log ⟨.debug, "spawned process",
        [("pid", .number id), ("program", .plain (call.argv.headD ""))]⟩)
    | .error _ => (handle, s)
  reply? handle s :=
    match handle with
    | .error e => (some (.refused e.message, ⟨0⟩), s)
    | .ok id =>
      let (answer, runner) := s.runner.poll id
      (answer.map fun a => (.output a.1, a.2), { s with runner := runner })
  wait s := s.attend.advance none

/-- A session as the surroundings of an execution. -/
def surroundings (verbose : Bool) (script : String) (settings : WatchSettings) (w : Watcher) :
    Surroundings Session Handle where
  toHost := host verbose
  idle s := s.rest settings.pollInterval.nanos
  settle s := s.rest settings.debounce.nanos
  scan previous s :=
    let taken := Snapshot.take s.tree w.members w.options previous
    (taken.value, (s.logAll taken.entries).attend)
  announce changes plan s := s.print (Change.announcement changes script plan)
  print text s := s.print text

end Session

end ScriptRunner
