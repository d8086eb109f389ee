import ScriptRunner.Shell.Syntax
import ScriptRunner.SortedMap

/-!
# The state of a shell

Variables, arguments, options and traps, and `Run`: what a shell does while its state changes.
-/

namespace ScriptRunner.Shell

structure Variable where
  /-- Nothing for a variable that is only marked. -/
  value : Option String := none
  exported : Bool := false
  fixed : Bool := false
  deriving DecidableEq, Repr

/-- When a trap runs: at the end of the shell, or when a signal arrives. -/
inductive Occasion where
  | leaving
  | arrival (s : Signal)
  deriving DecidableEq, Repr

structure State where
  name : String
  arguments : List String := []
  bindings : SortedMap String Variable := ∅
  functions : List (String × Command) := []
  status : Nat := 0
  /-- The status of the last command whose output has become a part of the present one. -/
  inner : Option Nat := none
  /-- The number of the process that the shell started as. -/
  process : Nat := 0
  /-- The last command that was started in the background. -/
  background : Option Nat := none
  /-- Children whose end the shell has met while it waited for another. -/
  ended : List (Nat × Nat) := []
  /-- This is the shell itself, not a part of it in a process of its own. -/
  isRoot : Bool := true
  options : List Char := []
  /-- Actions; an empty one ignores its signal. -/
  traps : List (Occasion × String) := []
  /-- Signals that were ignored when the shell started, and stay so. -/
  deaf : List Signal := []
  /-- Signals that have arrived and whose traps have not run. -/
  arrived : List Signal := []
  /-- Variables to be put back at the end of each function call. -/
  frames : List (List (String × Option Variable)) := []
  /-- How many loops enclose the present command. -/
  loops : Nat := 0
  /-- How many redirections of commands that run in the shell itself enclose one another. -/
  depth : Nat := 0
  line : Nat := 1
  /-- What the shell runs, with a colon behind it, where that is not its script. -/
  within : String := ""

namespace State

def value? (s : State) (name : String) : Option String := (s.bindings.get? name).bind (·.value)

/-- The state with a variable set; nothing if the variable is fixed. -/
def set? (s : State) (name value : String) : Option State :=
  let old := (s.bindings.get? name).getD {}
  if old.fixed then none
  else
    let exported := old.exported || s.options.contains 'a'
    some { s with bindings := s.bindings.insert name { old with value := some value, exported := exported } }

def mark (s : State) (name : String) (f : Variable → Variable) : State :=
  { s with bindings := s.bindings.insert name (f ((s.bindings.get? name).getD {})) }

/-- The variables that programs get to see. -/
def environment (s : State) : List (String × String) :=
  s.bindings.entries.filterMap fun e => if e.2.exported then e.2.value.map fun v => (e.1, v) else none

/-- The state with a variable as it was. -/
def restore (s : State) (name : String) (old : Option Variable) : State :=
  { s with bindings := match old with | some v => s.bindings.insert name v | none => s.bindings.erase name }

/-- A shell that starts in some directory and environment. -/
def initial (name : String) (arguments : List String) (environment : List (String × String)) (place : String)
    (process : Nat) : State :=
  let inherited : SortedMap String Variable :=
    SortedMap.ofList (environment.map fun e => (e.1, { value := some e.2, exported := true }))
  { name := name
    arguments := arguments
    bindings := inherited.insert "PWD" { (inherited.get? "PWD").getD {} with value := some place }
    process := process }

/-- What begins every message of the shell. -/
def sign (s : State) : String := s!"{s.name}: {s.line}: "

/-- The trap of an occasion. -/
def trap? (s : State) (o : Occasion) : Option String := s.traps.lookup o

/-- Some signal has a trap that does something. -/
def hasTraps (s : State) : Bool := s.traps.any fun t => t.2 ≠ ""

end State

/-- What a shell does. -/
abbrev Run := StateT State Act

namespace Run

/-- Puts a query to the machine. -/
def ask (q : Query) : Run q.Answer := fun s => do return (← Act.ask q, s)

def lift {α : Type} (x : Act α) : Run α := fun s => do return (← x, s)

def setStatus (n : Nat) : Run Unit := modify fun s => { s with status := n }

/-- Writes a message that says whose it is. -/
def report (message : String) : Run Unit := do
  lift (Act.print 2 ((← get).sign ++ message ++ "\n"))

/-- Writes a message of the shell itself. -/
def complain (message : String) : Run Unit := do report ((← get).within ++ message)

/-- Says what has ended a child, if it was a signal that is worth a word. -/
def tellEnding (how : Ending) : Run Unit :=
  match how with
  | .signal s => if s = .interrupt || s = .brokenPipe then pure () else lift (Act.print 2 (s.description ++ "\n"))
  | .exit _ => pure ()

/-- Notes the signals that have arrived. -/
def collect : Run Unit := do
  let arrived ← ask .arrivals
  modify fun s => { s with arrived := s.arrived ++ arrived }

/-- Becomes a part of a shell in a process of its own: traps that do something are gone. -/
def detach : Run Unit := do
  for (o, action) in (← get).traps do
    match o with
    | .arrival s => if action ≠ "" then ask (.dispose s .standard)
    | .leaving => pure ()
  modify fun s => { s with isRoot := false, ended := [], traps := s.traps.filter fun t => t.2 = "" && t.1 ≠ .leaving }

/-- Starts a child that does something with a copy of the state, and yields its number. -/
def fork (child : Run Unit) : Run Nat := fun s => do
  let id ← Act.fork (do
    let (_, s) ← (do
      detach
      child : Run Unit).run s
    pure s.status)
  pure (id, s)

end Run

end ScriptRunner.Shell
