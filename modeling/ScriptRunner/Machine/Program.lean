import ScriptRunner.Files.Access
import ScriptRunner.Machine.Signal

/-!
# Programs

A program is what a process does, as far as the machine can see it: it puts one query after another to the machine,
and each answer decides how it goes on.  It may fork, and in the end it exits.  An `Act` is a stretch of a program that
yields a value; `exit` in the middle of one leaves out the rest.
-/

namespace ScriptRunner

/-- How a file is opened. -/
inductive OpenMode where
  | read
  /-- The file is emptied first. -/
  | write
  | append
  | both
  deriving DecidableEq, Repr

/-- Whom a signal goes to. -/
inductive Target where
  | process (id : Nat)
  | group (id : Nat)
  deriving DecidableEq, Repr

/-- What a program can ask of the machine. -/
inductive Query where
  /-- The numbers of the process and of its group. -/
  | identity
  | clock
  /-- The file tree, and the directory that the process is in. -/
  | look
  /-- A change of the file tree, made from a directory at a time. -/
  | alter (change : Tree → List String → Nat → Except FileFault Tree)
  | enter (path : String)
  | openFile (fd : Nat) (path : String) (mode : OpenMode)
  | pipe (reading writing : Nat)
  /-- Descriptor `target` becomes what `source` is. -/
  | copy (source target : Nat)
  | close (fd : Nat)
  /-- At most so many bytes; none at the end of the input. -/
  | read (fd count : Nat)
  | write (fd : Nat) (data : List UInt8)
  | sleepUntil (time : Nat)
  /-- The end of a child: of the given one, or of any.  A caught signal may cut the wait short. -/
  | await (child : Option Nat) (breakable : Bool)
  | dispose (s : Signal) (d : Disposition)
  /-- The signals that the process ignores. -/
  | ignores
  /-- The caught signals that have arrived. -/
  | arrivals
  /-- No signal at all only asks whether there is somebody. -/
  | send (target : Target) (s : Option Signal)
  /-- Makes way for a new program: caught signals and private descriptors go. -/
  | renew
  | pause

/-- The end of a wait. -/
inductive Awaited where
  | ended (child : Nat) (how : Ending)
  | noChild
  | broken
  deriving DecidableEq, Repr

/-- What the machine answers. -/
@[reducible] def Query.Answer : Query → Type
  | identity => Nat × Nat
  | clock => Nat
  | look => Tree × List String
  | alter _ => Except FileFault Unit
  | enter _ => Except FileFault Unit
  | openFile _ _ _ => Except FileFault Unit
  | pipe _ _ => Unit
  | copy _ _ => Except FileFault Unit
  | close _ => Unit
  | read _ _ => Except FileFault (List UInt8)
  | write _ _ => Except FileFault Unit
  | sleepUntil _ => Unit
  | await _ _ => Awaited
  | dispose _ _ => Unit
  | ignores => List Signal
  | arrivals => List Signal
  | send _ _ => Bool
  | renew => Unit
  | pause => Unit

/-- What a process does. -/
inductive Program where
  | exit (code : Nat)
  | ask (q : Query) (next : q.Answer → Program)
  /-- The child goes its own way; `next` learns its number. -/
  | fork (child : Program) (next : Nat → Program)

/-- A stretch of a program that yields a value. -/
def Act (α : Type) : Type := (α → Program) → Program

namespace Act

instance : Monad Act where
  pure a := fun next => next a
  bind x f := fun next => x fun a => f a next

/-- Puts a query to the machine. -/
def ask (q : Query) : Act q.Answer := fun next => .ask q next

/-- Ends the process. -/
def exit {α : Type} (code : Nat) : Act α := fun _ => .exit code

/-- Goes on as another program, and never comes back. -/
def become {α : Type} (p : Program) : Act α := fun _ => .ask .renew fun _ => p

/-- The whole program of a stretch that ends in an exit code. -/
def program (x : Act Nat) : Program := x .exit

/-- Starts a child, and yields its number. -/
def fork (child : Act Nat) : Act Nat := fun next => .fork child.program next

/-- Sleeps for so many nanoseconds. -/
def sleep (nanos : Nat) : Act Unit := do
  let now ← ask .clock
  ask (.sleepUntil (now + nanos))

/-- Writes a text to a descriptor, and gives up if nobody reads it. -/
def print (fd : Nat) (text : String) : Act Unit := do
  let _ ← ask (.write fd (Text.encode text))

/-- All bytes of a descriptor, read in portions. -/
def readAll (fd : Nat) : Nat → List (List UInt8) → Act (Except FileFault (List UInt8))
  | 0, parts => pure (.ok parts.reverse.flatten)
  | fuel + 1, parts => do
    match ← ask (.read fd 65536) with
    | .error e => pure (.error e)
    | .ok [] => pure (.ok parts.reverse.flatten)
    | .ok data => readAll fd fuel (data :: parts)

end Act

end ScriptRunner
