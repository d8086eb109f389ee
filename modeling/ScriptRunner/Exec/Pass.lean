import ScriptRunner.Exec.Command
import ScriptRunner.Exec.Pool
import ScriptRunner.Log.Entry
import ScriptRunner.Order.Plan
import ScriptRunner.Report.Console

/-!
# Passes

A pass runs the groups of a plan, one after another.  Within a group the workers of a pool take the members in any
interleaving of their moves; the next group opens only when every worker of the group before is done.  `Pass.move?`
gives the effect of one move, `Host` the world that a pass runs in, and `Pass.run` drives a pass in a host.
-/

namespace ScriptRunner

/-- A program call for a member. -/
structure Call where
  cwd : String
  argv : List String
  timeout : Option Duration
  deriving DecidableEq, Repr

/-- What a program left behind. -/
structure Output where
  /-- Nothing when a signal ended the program. -/
  exitCode : Option Int
  stdout : String
  stderr : String
  timedOut : Bool
  deriving DecidableEq, Repr

/-- How a call ends. -/
inductive Reply where
  | output (out : Output)
  /-- The program did not start. -/
  | refused (text : String)
  /-- The caller was lost. -/
  | lost
  deriving DecidableEq, Repr

/-- The reasons for a table that could not be read, the outermost first. -/
abbrev TableError := List String

/-- What all members of a run have in common. -/
structure RunSettings where
  invocation : Invocation
  timeout : Option Duration := none
  workers : Nat := 1
  deriving DecidableEq, Repr

namespace Pass

/-! ### One member -/

/-- What a member's table leads to. -/
inductive Opening where
  | settled (result : ScriptResult)
  | call (request : Call)
  deriving DecidableEq, Repr

/-- Looks the script up in a member's table. -/
def opening (s : RunSettings) (m : Member) (table : Except TableError (Option ScriptTable)) : Logged Opening :=
  match table with
  | .ok none => do
    Logged.note .debug "member has no scripts" [("member", .plain m.name)]
    pure (.settled (.skipped m.name .noScripts))
  | .error reasons => do
    Logged.note .warn "could not read script table"
      [("member", .plain m.name), ("error", .plain (reasons.headD ""))]
    pure (.settled (.failed m.name (.scriptTable (": ".intercalate reasons))))
  | .ok (some scripts) =>
    match scripts.get? s.invocation.script with
    | none => do
      Logged.note .debug "script not defined" [("member", .plain m.name), ("script", .plain s.invocation.script)]
      pure (.settled (.skipped m.name .scriptNotFound))
    | some line => do
      let command := commandLine line s.invocation.args
      Logged.note .info "starting script" [("member", .plain m.name), ("cmd", .plain command)]
      pure (.call ⟨m.dir, shellArgv command, s.timeout⟩)

/-- The outcome that a program's end stands for. -/
def classify (exitCode : Option Int) (timedOut : Bool) (timeout : Option Duration) : Outcome :=
  if timedOut then .failed (.timedOut (timeout.getD ⟨0⟩))
  else match exitCode with
    | none => .failed .terminated
    | some code => if code = 0 then .success else .failed (.exitCode code)

/-- The result of a call that came back. -/
def closing (s : RunSettings) (m : Member) (reply : Reply) (took : Duration) : Logged (Option ScriptResult) :=
  match reply with
  | .lost => pure none
  | .refused text => do
    Logged.note .warn "failed to spawn script" [("member", .plain m.name), ("error", .plain text)]
    pure (some { ScriptResult.failed m.name (.spawn text) with took := took })
  | .output out => do
    Logged.note .info "script exited"
      [("member", .plain m.name),
        ("exit_code", .plain (Text.optionText (out.exitCode.map toString))),
        ("timed_out", .flag out.timedOut), ("elapsed_ms", .number took.millis)]
    pure (some ⟨m.name, classify out.exitCode out.timedOut s.timeout, out.exitCode, out.stdout, out.stderr, took⟩)

/-- The result of a member whose slot stayed empty. -/
def lostResult (m : Member) : ScriptResult := .failed m.name (.infrastructure "worker thread panicked")

/-- The results of a group, from the slots of its pool. -/
def resultsOf (group : List Member) (slots : List (Option ScriptResult)) : List ScriptResult :=
  (slots.zip group).map fun e => e.1.getD (lostResult e.2)

end Pass

/-! ### The pass as a machine -/

/-- Where a pass stands. -/
inductive Pass.Phase where
  /-- Between two groups. -/
  | between
  /-- A group runs on a pool. -/
  | running (group : List Member) (pool : Pool ScriptResult)
  | finished
  deriving DecidableEq, Repr

/-- A pass over a plan. -/
structure Pass where
  plan : Plan
  phase : Pass.Phase := .between
  /-- The results of the groups that are over. -/
  results : List (List ScriptResult) := []
  deriving DecidableEq, Repr

namespace Pass

/-- What a pass tells the world: report events and log entries. -/
inductive Word where
  | event (e : Report.Event)
  | entry (e : Log.Entry)
  deriving DecidableEq, Repr

/-- One move of a pass. -/
inductive Move where
  /-- At the boundary between groups: whether the run is stopping, how many workers start for the next group, and the
  time that the pass has taken. -/
  | boundary (stopping : Bool) (started : Nat) (elapsed : Duration)
  | claim (worker : Nat)
  /-- The worker has read the table of its member, and calls the script if there is one. -/
  | start (worker : Nat) (table : Except TableError (Option ScriptTable))
  /-- The call of the worker has come back. -/
  | finish (worker : Nat) (reply : Reply) (took : Duration)
  | store (worker : Nat)
  /-- Every worker of the group is done. -/
  | close

def summary (p : Pass) : Summary := Summary.ofResults p.results.flatten

/-- The next group of the plan. -/
def nextGroup? (p : Pass) : Option (List Member) := p.plan.groups[p.results.length]?

/-- The member that a worker is at. -/
def memberAt? (p : Pass) (k : Nat) : Option Member :=
  match p.phase with
  | .running group pool =>
    match pool.workers[k]? with
    | some (.claimed i) => group[i]?
    | some (.working i) => group[i]?
    | _ => none
  | _ => none

private def words (es : List Log.Entry) : List Word := es.map Word.entry

/-- The events of the results of a group. -/
def resultEvents (rs : List ScriptResult) : List Word := rs.map fun r => Word.event (.memberFinished r)

/-- Ends the pass and reports its summary. -/
def conclude (s : RunSettings) (p : Pass) (elapsed : Duration) : Pass × List Word :=
  let sum := p.summary
  ({ p with phase := .finished },
    [.event (.runFinished sum elapsed),
      .entry ⟨.info, "run finished",
        [("script", .plain s.invocation.script), ("groups", .number p.plan.groups.length),
          ("success", .number sum.success), ("failed", .number sum.failed), ("skipped", .number sum.skipped)]⟩])

/-- Opens a group.  A group none of whose workers can be started fails as a whole; an empty one is over at once. -/
def openGroup (s : RunSettings) (p : Pass) (group : List Member) (started : Nat) : Pass × List Word :=
  let opened :=
    [.event (.groupStarted p.results.length p.plan.groups.length (group.map (·.name))),
      .entry ⟨.debug, "running group", [("size", .number group.length), ("workers", .number s.workers)]⟩]
  if group.isEmpty then ({ p with results := p.results ++ [[]] }, opened)
  else if started = 0 then
    let error : PoolError := ⟨min s.workers group.length⟩
    let rs := group.map fun m => ScriptResult.failed m.name (.infrastructure error.message)
    ({ p with results := p.results ++ [rs] },
      opened ++
        .entry ⟨.warn, "worker pool unavailable; failing whole group", [("error", .plain error.message)]⟩ ::
        resultEvents rs)
  else ({ p with phase := .running group (Pool.start started group.length) }, opened)

/-- The effect of a move, if the pass can make it. -/
def move? (s : RunSettings) (p : Pass) (move : Move) : Option (Pass × List Word) :=
  match p.phase, move with
  | .between, .boundary stopping started elapsed =>
    match p.nextGroup? with
    | none => some (p.conclude s elapsed)
    | some group =>
      if stopping then
        let (q, ws) := p.conclude s elapsed
        some (q, .entry ⟨.warn, "run interrupted; later groups not started",
          [("remaining", .number (p.plan.groups.length - p.results.length))]⟩ :: ws)
      else some (p.openGroup s group started)
  | .running group pool, .claim k => (pool.claim? k).map fun q => ({ p with phase := .running group q }, [])
  | .running group pool, .start k table =>
    match pool.workers[k]?, p.memberAt? k with
    | some (.claimed _), some m =>
      let o := opening s m table
      match o.value with
      | .settled r => (pool.finish? k r).map fun q => ({ p with phase := .running group q }, words o.entries)
      | .call _ => (pool.start? k).map fun q => ({ p with phase := .running group q }, words o.entries)
    | _, _ => none
  | .running group pool, .finish k reply took =>
    match pool.workers[k]?, p.memberAt? k with
    | some (.working _), some m =>
      let c := closing s m reply took
      match c.value with
      | none => (pool.lose? k).map fun q => ({ p with phase := .running group q }, words c.entries)
      | some r => (pool.finish? k r).map fun q => ({ p with phase := .running group q }, words c.entries)
    | _, _ => none
  | .running group pool, .store k => (pool.store? k).map fun q => ({ p with phase := .running group q }, [])
  | .running group pool, .close =>
    if pool.isOver then
      let rs := resultsOf group pool.slots
      let lost := pool.workers.filter fun w => match w with | .lost => true | _ => false
      some ({ p with phase := .between, results := p.results ++ [rs] },
        lost.map (fun _ => Word.entry ⟨.warn, "worker thread panicked", []⟩) ++ resultEvents rs)
    else none
  | _, _ => none

end Pass

/-! ### Driving a pass -/

/-- The world of a pass: `σ` is its state, `τ` stands for a call under way. -/
structure Host (σ τ : Type) where
  now : σ → Duration
  stopping : σ → Bool
  /-- How many of so many workers can be started. -/
  startable : Nat → σ → Nat
  tell : List Pass.Word → σ → σ
  table : Member → σ → Except TableError (Option ScriptTable) × σ
  begin : Call → σ → τ × σ
  /-- The reply to a call, once it is there. -/
  reply? : τ → σ → Option (Reply × Duration) × σ
  /-- Lets the world go on for a while. -/
  wait : σ → σ

namespace Pass

/-- A pass, the calls of its workers, and the state of the world. -/
structure Drive (σ τ : Type) where
  pass : Pass
  world : σ
  calls : List (Nat × τ) := []
  /-- When the pass began. -/
  began : Duration

variable {σ τ : Type}

/-- Makes a move and tells the world about it. -/
def Drive.make (host : Host σ τ) (s : RunSettings) (d : Drive σ τ) (move : Move) : Drive σ τ :=
  match d.pass.move? s move with
  | none => d
  | some (pass, ws) => { d with pass := pass, world := host.tell ws d.world }

/-- What worker `k` can do now, and whether it did anything. -/
def Drive.advance (host : Host σ τ) (s : RunSettings) (d : Drive σ τ) (k : Nat) : Drive σ τ × Bool :=
  match d.pass.phase with
  | .running _ pool =>
    match pool.workers[k]? with
    | some .ready => (d.make host s (.claim k), true)
    | some (.claimed _) =>
      match d.pass.memberAt? k with
      | none => (d, false)
      | some m =>
        let (table, world) := host.table m d.world
        let d := { d with world := world }.make host s (.start k table)
        match (opening s m table).value with
        | .settled _ => (d, true)
        | .call request =>
          let (call, world) := host.begin request d.world
          ({ d with world := world, calls := (k, call) :: d.calls }, true)
    | some (.working _) =>
      match d.calls.lookup k with
      | none => (d, false)
      | some call =>
        let (answer, world) := host.reply? call d.world
        let d := { d with world := world }
        match answer with
        | none => (d, false)
        | some (reply, took) =>
          ({ d with calls := d.calls.filter (·.1 ≠ k) }.make host s (.finish k reply took), true)
    | some (.holding _ _) => (d.make host s (.store k), true)
    | _ => (d, false)
  | _ => (d, false)

/-- One round: a boundary, or a move of each worker in turn; the world goes on when nobody moved. -/
def Drive.round (host : Host σ τ) (s : RunSettings) (d : Drive σ τ) : Drive σ τ :=
  match d.pass.phase with
  | .finished => d
  | .between =>
    let wanted := min s.workers ((d.pass.nextGroup?.getD []).length)
    d.make host s (.boundary (host.stopping d.world) (min wanted (host.startable wanted d.world))
      ⟨(host.now d.world).nanos - d.began.nanos⟩)
  | .running _ pool =>
    if pool.isOver then d.make host s .close
    else
      let (d, moved) := (List.range pool.workers.length).foldl
        (fun (acc : Drive σ τ × Bool) k => let (d, m) := acc.1.advance host s k; (d, acc.2 || m)) (d, false)
      if moved then d else { d with world := host.wait d.world }

/-- Rounds until the pass is over. -/
def Drive.run (host : Host σ τ) (s : RunSettings) : Nat → Drive σ τ → Drive σ τ
  | 0, d => d
  | fuel + 1, d =>
    match d.pass.phase with
    | .finished => d
    | _ => Drive.run host s fuel (d.round host s)

/-- A pass over a plan, from its start. -/
def run (host : Host σ τ) (s : RunSettings) (fuel : Nat) (plan : Plan) (world : σ) : Drive σ τ :=
  Drive.run host s fuel ⟨{ plan := plan }, world, [], host.now world⟩

end Pass

end ScriptRunner
