import ScriptRunner.Exec.Trial
import ScriptRunner.Json.Parser
import ScriptRunner.Session.Run

/-!
# The command line

The program carries out a command line on a file tree in memory.  It reads the tree from its standard input, as a JSON
table of paths and texts, prints what the run prints, writes the log and the reason of a failure to the standard error,
and ends with the exit code of the run.
-/

namespace ScriptRunner.Main

/-- The files of a table of paths and texts. -/
def filesOf : Document → List (String × List UInt8)
  | .table entries => entries.filterMap fun e => e.2.text?.map fun text => (e.1, Text.encode text)
  | _ => []

/-- A session on the files of a JSON text. -/
def sessionOf (text : String) (setting : Option String) : Session :=
  let files := ((Json.parse? text).map filesOf).getD []
  let runner := Trial.runnerOn (Disk.furnished [] files [])
  let settings := (setting.map fun value => (Session.levelSetting, value)).toList
  { runner := { runner with environment := runner.environment ++ settings }
    cwd := Disk.home
    lastCue := Disk.startTime }

/-- What is written to the standard error. -/
def errorText (result : Session.Result) (s : Session) : String :=
  let last := match result with
    | .refused e => ["wsrun error: " ++ e.name]
    | .failed f => [f.text]
    | .finished _ => []
  String.join ((s.logLines ++ last).map (· ++ "\n"))

/-- Everything that a stream holds. -/
partial def readAll (stream : IO.FS.Stream) (text : String) : IO String := do
  let line ← stream.getLine
  if line.isEmpty then pure text else readAll stream (text ++ line)

end ScriptRunner.Main

open ScriptRunner in
def main (words : List String) : IO UInt32 := do
  let text ← Main.readAll (← IO.getStdin) ""
  let (result, s) := Session.execute words (Main.sessionOf text (← IO.getEnv Session.levelSetting))
  (← IO.getStdout).putStr s.output
  (← IO.getStderr).putStr (Main.errorText result s)
  pure result.exitCode.toUInt32
