import ScriptRunner.SortedMap

/-!
# Commands

A script is a line for the shell.  Arguments of the run are put behind it as they are, with a blank before each.
-/

namespace ScriptRunner

/-- Script names and their lines. -/
abbrev ScriptTable := SortedMap String String

/-- The script to run and the arguments that go with it. -/
structure Invocation where
  script : String
  args : List String := []
  deriving DecidableEq, Repr

/-- A script's line with the arguments of the run. -/
def commandLine (line : String) (args : List String) : String :=
  if args.isEmpty then line else line ++ " " ++ " ".intercalate args

/-- The program and arguments that give a line to the shell. -/
def shellArgv (line : String) : List String := ["sh", "-c", line]

end ScriptRunner
