import ScriptRunner.Machine.Program

/-!
# The machine

A file tree, a clock, and processes that run programs.  `Kernel.turn` lets one process put one query; a query that
cannot be answered yet blocks its process.  `Kernel.settle` gives turns to all processes until every one of them is
blocked, and `Kernel.wake` moves the clock on to the next moment at which a sleeper wakes.
-/

namespace ScriptRunner

/-- What a descriptor leads to. -/
inductive Stream where
  | device (name : String)
  /-- A file that is read or written from an offset on. -/
  | file (place : List String) (offset : Nat) (append : Bool)
  | pipeOut (pipe : Nat)
  | pipeIn (pipe : Nat)
  /-- Everything that is written is kept. -/
  | sink (id : Nat)
  deriving Repr

/-- What a process is at. -/
inductive Task where
  | live (p : Program)
  /-- The process is over, and its parent has not heard of it. -/
  | ended (how : Ending)

def Task.ending? : Task → Option Ending
  | live _ => none
  | ended how => some how

structure Process where
  id : Nat
  parent : Nat
  group : Nat
  cwd : List String
  /-- Descriptors and the numbers of their streams. -/
  files : List (Nat × Nat)
  /-- The signals with a disposition other than the standard one. -/
  manners : List (Signal × Disposition) := []
  /-- Caught signals that the process has not asked for yet. -/
  pending : List Signal := []
  task : Task

namespace Process

def isLive (p : Process) : Bool :=
  match p.task with
  | .live _ => true
  | .ended _ => false

def disposition (p : Process) (s : Signal) : Disposition := (p.manners.lookup s).getD .standard

def setDisposition (p : Process) (s : Signal) (d : Disposition) : Process :=
  let others := p.manners.filter (·.1 ≠ s)
  { p with manners := match d with | .standard => others | d => (s, d) :: others }

/-- The process after its end. -/
def ended (p : Process) (how : Ending) : Process := { p with task := .ended how, files := [], pending := [] }

/-- The process with its descriptors in place for a new program. -/
def renewed (p : Process) : Process :=
  { p with files := p.files.filter (·.1 < 10), manners := p.manners.filter (·.2 ≠ .caught), pending := [] }

def setFile (p : Process) (fd stream : Nat) : Process := { p with files := (fd, stream) :: p.files.filter (·.1 ≠ fd) }

end Process

/-- A machine.  Times are in nanoseconds. -/
structure Kernel where
  tree : Tree
  clock : Nat
  /-- In the order of their start. -/
  processes : List Process := []
  streams : List (Nat × Stream) := []
  /-- What is on its way through the pipes. -/
  pipes : List (Nat × List UInt8) := []
  /-- What was written to the sinks, the last portion first. -/
  sinks : List (Nat × List (List UInt8)) := []
  /-- The next number for a process, a stream or a pipe. -/
  fresh : Nat := 100

namespace Kernel

/-- How much a pipe holds. -/
def pipeSize : Nat := 65536

/-- How long a round of turns takes. -/
def turnTime : Nat := 1000

def find? (k : Kernel) (id : Nat) : Option Process := k.processes.find? (·.id = id)

def update (k : Kernel) (id : Nat) (f : Process → Process) : Kernel :=
  { k with processes := k.processes.map fun p => if p.id = id then f p else p }

/-- Whether some live process holds a stream for which `test` is true. -/
def holds (k : Kernel) (test : Stream → Bool) : Bool :=
  k.processes.any fun p => p.files.any fun f => ((k.streams.lookup f.2).map test).getD false

def pipeHasReader (k : Kernel) (pipe : Nat) : Bool :=
  k.holds fun s => match s with | .pipeOut p => p = pipe | _ => false

def pipeHasWriter (k : Kernel) (pipe : Nat) : Bool :=
  k.holds fun s => match s with | .pipeIn p => p = pipe | _ => false

/-- Whether somebody may still write to a sink. -/
def sinkIsOpen (k : Kernel) (id : Nat) : Bool :=
  k.holds fun s => match s with | .sink i => i = id | _ => false

def sinkData (k : Kernel) (id : Nat) : List UInt8 := ((k.sinks.lookup id).getD []).reverse.flatten

/-- An association list with one value set. -/
private def assign {α : Type} (id : Nat) (a : α) (es : List (Nat × α)) : List (Nat × α) :=
  (id, a) :: es.filter (·.1 ≠ id)

/-- The machine without the streams that nobody holds. -/
def tidy (k : Kernel) : Kernel :=
  { k with streams := k.streams.filter fun s => k.processes.any fun p => p.files.any (·.2 = s.1) }

/-! ### Ends and signals -/

/-- The end of a process: its children go to process 1, which hears of their ends at once, and its own end stays
to be heard by its parent if there is one. -/
def finish (k : Kernel) (id : Nat) (how : Ending) : Kernel :=
  let ps := k.processes.filterMap fun p =>
    if p.id = id then
      if p.parent = 0 || k.processes.any (fun q => q.id = p.parent && q.isLive) then some (p.ended how) else none
    else if p.parent = id then if p.isLive then some { p with parent := 1 } else none
    else some p
  tidy { k with processes := ps }

/-- A signal arrives at a process. -/
def deliver (k : Kernel) (s : Signal) (id : Nat) : Kernel :=
  match k.find? id with
  | none => k
  | some p =>
    if !p.isLive then k
    else match s, p.disposition s with
      | .kill, _ => k.finish id (.signal .kill)
      | _, .standard => if s.isHarmless then k else k.finish id (.signal s)
      | _, .ignored => k
      | _, .caught => k.update id fun p => { p with pending := p.pending ++ [s] }

/-- The processes that a signal is for. -/
def targets (k : Kernel) : Target → List Nat
  | .process id => (k.processes.filter fun p => p.id = id).map (·.id)
  | .group id => (k.processes.filter fun p => p.group = id).map (·.id)

def signal (k : Kernel) (s : Signal) (target : Target) : Kernel := (k.targets target).foldl (deliver · s) k

/-! ### Descriptors -/

/-- Opens a stream for a process under a descriptor. -/
def openStream (k : Kernel) (id fd : Nat) (s : Stream) : Kernel :=
  { k.update id (·.setFile fd k.fresh) with streams := (k.fresh, s) :: k.streams, fresh := k.fresh + 1 }

def openPath (k : Kernel) (p : Process) (fd : Nat) (path : String) (mode : OpenMode) : Except FileFault Kernel :=
  match mode with
  | .read =>
    match k.tree.resolve p.cwd path with
    | .error e => .error e
    | .ok (_, .device name) => .ok (k.openStream p.id fd (.device name))
    | .ok (place, _) => .ok (k.openStream p.id fd (.file place 0 false))
  | mode =>
    match k.tree.placeOf Tree.maxLinks p.cwd path with
    | .error e => .error e
    | .ok place =>
      match k.tree.get? place with
      | some (.device name) => .ok (k.openStream p.id fd (.device name))
      | some (.file _ _) =>
        let emptied := if mode = .write then k.tree.put? (some (.file [] k.clock)) place else none
        .ok ({ k with tree := emptied.getD k.tree }.openStream p.id fd (.file place 0 (mode == OpenMode.append)))
      | _ =>
        match k.tree.put? (some (.file [] k.clock)) place with
        | none => .error .notFound
        | some tree => .ok ({ k with tree := tree }.openStream p.id fd (.file place 0 (mode == OpenMode.append)))

/-- Reads from a stream; nothing if the reader has to wait. -/
def readStream (k : Kernel) (number count : Nat) :
    Option (Except FileFault (List UInt8) × Kernel) :=
  match k.streams.lookup number with
  | some (.device "zero") => some (.ok (List.replicate count 0), k)
  | some (.device _) => some (.ok [], k)
  | some (.file place offset append) =>
    match k.tree.get? place with
    | some (.file data _) =>
      let part := (data.drop offset).take count
      some (.ok part, { k with streams := assign number (.file place (offset + part.length) append) k.streams })
    | some (.dir _) => some (.error .isDirectory, k)
    | _ => some (.ok [], k)
  | some (.pipeOut pipe) =>
    match (k.pipes.lookup pipe).getD [] with
    | [] => if k.pipeHasWriter pipe then none else some (.ok [], k)
    | data => some (.ok (data.take count), { k with pipes := assign pipe (data.drop count) k.pipes })
  | _ => some (.error .badDescriptor, k)

/-- The bytes of a file after a write at an offset. -/
def overwritten (old : List UInt8) (offset : Nat) (data : List UInt8) : List UInt8 :=
  old.take offset ++ List.replicate (offset - old.length) 0 ++ data ++ old.drop (offset + data.length)

/-- Writes to a stream: what remains to be written, or the fault. -/
def writeStream (k : Kernel) (number : Nat) (data : List UInt8) : Except FileFault (List UInt8) × Kernel :=
  match k.streams.lookup number with
  | some (.device _) => (.ok [], k)
  | some (.file place offset append) =>
    match k.tree.get? place with
    | some (.file old _) =>
      let start := if append then old.length else offset
      let tree := (k.tree.put? (some (.file (overwritten old start data) k.clock)) place).getD k.tree
      (.ok [], { k with
        tree := tree
        streams := assign number (.file place (start + data.length) append) k.streams })
    | _ => (.ok [], k)
  | some (.pipeIn pipe) =>
    if !k.pipeHasReader pipe then (.error .brokenPipe, k)
    else
      let held := (k.pipes.lookup pipe).getD []
      let room := pipeSize - held.length
      (.ok (data.drop room), { k with pipes := assign pipe (held ++ data.take room) k.pipes })
  | some (.sink id) => (.ok [], { k with sinks := assign id (data :: (k.sinks.lookup id).getD []) k.sinks })
  | _ => (.error .badDescriptor, k)

/-! ### Queries -/

/-- Takes the end of a child off the table. -/
def reap (k : Kernel) (id : Nat) : Kernel := { k with processes := k.processes.filter (·.id ≠ id) }

def awaitChild (k : Kernel) (p : Process) (child : Option Nat) (breakable : Bool) : Option (Awaited × Kernel) :=
  let children := k.processes.filter fun c => c.parent = p.id && (child.isNone || child = some c.id)
  match children.findSome? fun c => c.task.ending?.map fun how => (c.id, how) with
  | some (id, how) => some (.ended id how, k.reap id)
  | none =>
    if children.isEmpty then some (.noChild, k)
    else if breakable && !p.pending.isEmpty then some (.broken, k)
    else none

private def changed (k : Kernel) (r : Except FileFault Tree) : Except FileFault Unit × Kernel :=
  match r with
  | .ok tree => (.ok (), { k with tree := tree })
  | .error e => (.error e, k)

/-- What becomes of a query. -/
inductive Response (q : Query) where
  | done (a : q.Answer) (k : Kernel)
  | blocked
  /-- Another query takes the place of this one. -/
  | again (rest : Query) (link : rest.Answer → q.Answer) (k : Kernel)

private def Response.ofPair {q : Query} (r : q.Answer × Kernel) : Response q := .done r.1 r.2

private def Response.ofPair? {q : Query} : Option (q.Answer × Kernel) → Response q
  | some r => .done r.1 r.2
  | none => .blocked

/-- The answer to a query of a process. -/
def respond (k : Kernel) (p : Process) : (q : Query) → Response q
  | .identity => .done (p.id, p.group) k
  | .clock => .done k.clock k
  | .look => .done (k.tree, p.cwd) k
  | .alter change => .ofPair (k.changed (change k.tree p.cwd k.clock))
  | .enter path =>
    match k.tree.resolve p.cwd path with
    | .ok (place, .dir _) => .done (.ok ()) (k.update p.id fun p => { p with cwd := place })
    | .ok _ => .done (.error .notDirectory) k
    | .error e => .done (.error e) k
  | .openFile fd path mode =>
    match k.openPath p fd path mode with
    | .ok k => .done (.ok ()) k
    | .error e => .done (.error e) k
  | .pipe reading writing =>
    let pipe := k.fresh
    let k := { k with pipes := (pipe, []) :: k.pipes, fresh := pipe + 1 }
    .done () ((k.openStream p.id reading (.pipeOut pipe)).openStream p.id writing (.pipeIn pipe))
  | .copy source target =>
    match p.files.lookup source with
    | some number => .done (.ok ()) (k.update p.id (·.setFile target number))
    | none => .done (.error .badDescriptor) k
  | .close fd => .done () (tidy (k.update p.id fun p => { p with files := p.files.filter (·.1 ≠ fd) }))
  | .read fd count =>
    match p.files.lookup fd with
    | none => .done (.error .badDescriptor) k
    | some number => .ofPair? (k.readStream number count)
  | .write fd data =>
    match p.files.lookup fd with
    | none => .done (.error .badDescriptor) k
    | some number =>
      match k.writeStream number data with
      | (.error .brokenPipe, k) => .done (.error .brokenPipe) (k.deliver .brokenPipe p.id)
      | (.error e, k) => .done (.error e) k
      | (.ok [], k) => .done (.ok ()) k
      | (.ok rest, k') => if rest.length = data.length then .blocked else .again (.write fd rest) id k'
  | .sleepUntil time => if k.clock < time then .blocked else .done () k
  | .await child breakable => .ofPair? (k.awaitChild p child breakable)
  | .dispose s d => .done () (k.update p.id (·.setDisposition s d))
  | .ignores => .done (Signal.all.filter fun s => p.disposition s = .ignored) k
  | .arrivals => .done p.pending (k.update p.id fun p => { p with pending := [] })
  | .send target s =>
    .done (!(k.targets target).isEmpty) (match s with | some s => k.signal s target | none => k)
  | .renew => .done () (tidy (k.update p.id Process.renewed))
  | .pause => .done () k

/-- A process goes on with a program, if nothing has ended it meanwhile. -/
def proceed (k : Kernel) (id : Nat) (next : Program) : Kernel :=
  k.update id fun p => if p.isLive then { p with task := .live next } else p

/-- One turn of a process, and whether it did anything. -/
def turn (k : Kernel) (id : Nat) : Kernel × Bool :=
  match k.find? id with
  | none => (k, false)
  | some p =>
    match p.task with
    | .ended _ => (k, false)
    | .live (.exit code) => (k.finish id (.exit (code % 256)), true)
    | .live (.fork child next) =>
      let c := { p with id := k.fresh, parent := id, pending := [], task := .live child }
      ({ k with processes := k.processes ++ [c], fresh := k.fresh + 1 }.proceed id (next c.id), true)
    | .live (.ask q next) =>
      match k.respond p q with
      | .done a k => (k.proceed id (next a), true)
      | .blocked => (k, false)
      | .again rest link k => (k.proceed id (.ask rest fun a => next (link a)), true)

/-- A turn of every process, and whether any did something. -/
def round (k : Kernel) : Kernel × Bool :=
  (k.processes.map (·.id)).foldl (fun (acc : Kernel × Bool) id =>
    let (k, moved) := acc.1.turn id
    (k, acc.2 || moved)) (k, false)

/-- Rounds until every process is blocked, at most `fuel` of them. -/
def settle : Nat → Kernel → Kernel
  | 0, k => k
  | fuel + 1, k =>
    match k.round with
    | (k, true) => settle fuel { k with clock := k.clock + turnTime }
    | (k, false) => k

/-- The next moment at which a sleeper wakes. -/
def nextWake? (k : Kernel) : Option Nat :=
  (k.processes.filterMap fun p =>
    match p.task with
    | .live (.ask (.sleepUntil time) _) => some time
    | _ => none).min?

/-- The machine at a later moment. -/
def wake (k : Kernel) (time : Nat) : Kernel := { k with clock := max k.clock time }

/-! ### Processes from outside -/

/-- Starts a process in a group of its own, with an empty input and a sink for each of its outputs.  Nobody but the
caller hears of its end. -/
def launch (k : Kernel) (p : Program) (cwd : List String) : Nat × Kernel :=
  let id := k.fresh
  let process : Process := ⟨id, 0, id, cwd, [], [], [], .live p⟩
  let k := { k with
    processes := k.processes ++ [process]
    sinks := (id + 1, []) :: (id + 2, []) :: k.sinks
    fresh := id + 3 }
  let k := k.openStream id 0 (.device "null")
  let k := k.openStream id 1 (.sink (id + 1))
  (id, k.openStream id 2 (.sink (id + 2)))

/-- The sinks of a process that was launched. -/
def outputOf (id : Nat) : Nat := id + 1

def errorsOf (id : Nat) : Nat := id + 2

/-- How a process has ended, if it has. -/
def ending? (k : Kernel) (id : Nat) : Option Ending := (k.find? id).bind (·.task.ending?)

end Kernel

end ScriptRunner
