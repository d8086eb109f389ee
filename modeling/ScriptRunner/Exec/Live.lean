import ScriptRunner.Machine.Signal

/-!
# Live scripts

The process groups of the scripts that run.  A script is entered when its process has been started, and taken out some
time after its end has been met.  After an interrupt nothing is entered any more (`spawn?_interrupt`).
-/

namespace ScriptRunner

structure Live where
  /-- The run has been interrupted. -/
  stopping : Bool := false
  /-- The groups, each once. -/
  groups : List Nat := []
  deriving DecidableEq, Repr

namespace Live

/-- Enters the group of a new script, unless the run is stopping. -/
def spawn? (l : Live) (group : Nat) : Option Live :=
  if l.stopping then none
  else some { l with groups := if l.groups.contains group then l.groups else l.groups ++ [group] }

/-- Takes a group out. -/
def release (l : Live) (group : Nat) : Live := { l with groups := l.groups.filter (· ≠ group) }

/-- Interrupts the run: every group that is entered is to be signalled. -/
def interrupt (l : Live) : Live × List Nat := ({ l with stopping := true }, l.groups)

theorem spawn?_interrupt (l : Live) (group : Nat) : l.interrupt.1.spawn? group = none := rfl

theorem stopping_release (l : Live) (group : Nat) : (l.release group).stopping = l.stopping := rfl

end Live

end ScriptRunner
