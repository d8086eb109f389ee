import ScriptRunner.Exec.Outcome
import ScriptRunner.Text.Blank
import ScriptRunner.Text.Lines

/-!
# Console reports

A run is reported by events: a group starts, a member has finished, the run has finished.  Each event is written as
one status line; the output of a script follows its status line, every line of it indented by four blanks.
-/

namespace ScriptRunner

namespace Report

/-- What a run tells its reader. -/
inductive Event where
  /-- A group starts: its position, the number of groups, its members. -/
  | groupStarted (index total : Nat) (members : List String)
  | memberFinished (result : ScriptResult)
  | runFinished (summary : Summary) (elapsed : Duration)
  deriving DecidableEq, Repr

end Report

namespace Console

open Report (Event)

/-- The lines of a script's output, trimmed at its end. -/
def outputLines (text : String) : List String :=
  if Text.isBlankText text then []
  else (Text.lines (Text.trimEnd text.toList)).map String.ofList

/-- A line of a script's output. -/
def indented (line : String) : String := "    " ++ line

/-- The status line of a result. -/
def status (r : ScriptResult) : String :=
  match r.outcome with
  | .success => "✔ " ++ r.member ++ " (" ++ r.took.inSeconds 2 ++ ")"
  | .skipped reason => "- " ++ r.member ++ " (skipped: " ++ reason.text ++ ")"
  | .failed kind => "✘ " ++ r.member ++ " (" ++ kind.text ++ ")"

/-- The output that is shown below the status line. -/
def shownOutput (verbose : Bool) (r : ScriptResult) : List String :=
  match r.outcome with
  | .success => if verbose then outputLines r.stdout else []
  | .skipped _ => []
  | .failed _ => (if verbose then outputLines r.stdout else []) ++ outputLines r.stderr

/-- The lines of an event. -/
def linesOf (verbose : Bool) : Event → List String
  | .groupStarted index total members =>
    if 1 < total then [s!"[{index + 1}/{total}] " ++ ", ".intercalate members] else []
  | .memberFinished r => status r :: (shownOutput verbose r).map indented
  | .runFinished summary elapsed => [summary.text ++ " in " ++ elapsed.inSeconds 2]

/-- What is written for an event. -/
def write (verbose : Bool) (e : Event) : String := String.join ((linesOf verbose e).map (· ++ "\n"))

end Console

end ScriptRunner
