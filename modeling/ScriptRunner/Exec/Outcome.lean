import ScriptRunner.Duration.Basic

/-!
# Outcomes

What came of one member's script, and the tally of a run.  `Summary.record` counts one outcome;
`ofResults_total` says that a tally counts every result once.
-/

namespace ScriptRunner

/-- Why nothing was run for a member. -/
inductive SkipReason where
  /-- The member has no script table. -/
  | noScripts
  /-- The table lacks the script. -/
  | scriptNotFound
  deriving DecidableEq, Repr

def SkipReason.text : SkipReason → String
  | noScripts => "no scripts defined"
  | scriptNotFound => "script not found"

/-- Why a member failed. -/
inductive FailureKind where
  | exitCode (code : Int)
  /-- A signal ended the process. -/
  | terminated
  | timedOut (after : Duration)
  /-- The shell did not start. -/
  | spawn (text : String)
  /-- The script table was there and could not be read. -/
  | scriptTable (text : String)
  /-- The pool failed the member, whose script never ran. -/
  | infrastructure (text : String)
  deriving DecidableEq, Repr

namespace FailureKind

def text : FailureKind → String
  | exitCode code => s!"exit code {code}"
  | terminated => "terminated by signal"
  | timedOut after => "timed out after " ++ after.inSeconds 1
  | spawn t => "failed to start: " ++ t
  | scriptTable t => "unreadable scripts: " ++ t
  | infrastructure t => "not run: " ++ t

/-- The text that stands in for the error output of a script that did not run. -/
def standIn : FailureKind → String
  | spawn t => t
  | scriptTable t => t
  | infrastructure t => t
  | _ => ""

end FailureKind

inductive Outcome where
  | success
  | skipped (reason : SkipReason)
  | failed (kind : FailureKind)
  deriving DecidableEq, Repr

/-- What came of one member. -/
structure ScriptResult where
  member : String
  outcome : Outcome
  exitCode : Option Int := none
  stdout : String := ""
  stderr : String := ""
  /-- How long the script ran; zero when none did. -/
  took : Duration := ⟨0⟩
  deriving DecidableEq, Repr

namespace ScriptResult

def skipped (member : String) (reason : SkipReason) : ScriptResult := ⟨member, .skipped reason, none, "", "", ⟨0⟩⟩

/-- A failure without any output of a script. -/
def failed (member : String) (kind : FailureKind) : ScriptResult :=
  ⟨member, .failed kind, none, "", kind.standIn, ⟨0⟩⟩

def isSuccess (r : ScriptResult) : Bool := r.outcome = .success

def isFailure (r : ScriptResult) : Bool :=
  match r.outcome with
  | .failed _ => true
  | _ => false

def isSkipped (r : ScriptResult) : Bool :=
  match r.outcome with
  | .skipped _ => true
  | _ => false

end ScriptResult

/-- How many members succeeded, failed and were skipped. -/
structure Summary where
  success : Nat := 0
  failed : Nat := 0
  skipped : Nat := 0
  deriving DecidableEq, Repr

namespace Summary

def record (s : Summary) (r : ScriptResult) : Summary :=
  match r.outcome with
  | .success => { s with success := s.success + 1 }
  | .skipped _ => { s with skipped := s.skipped + 1 }
  | .failed _ => { s with failed := s.failed + 1 }

/-- The tally of some results. -/
def ofResults (rs : List ScriptResult) : Summary := rs.foldl record {}

def total (s : Summary) : Nat := s.success + s.failed + s.skipped

/-- Skipped members alone do not make a run fail. -/
def exitCode (s : Summary) : Nat := if 0 < s.failed then 1 else 0

def text (s : Summary) : String := s!"{s.success} succeeded, {s.failed} failed, {s.skipped} skipped"

theorem total_record (s : Summary) (r : ScriptResult) : (s.record r).total = s.total + 1 := by
  unfold record total
  split <;> dsimp only <;> omega

theorem ofResults_total (rs : List ScriptResult) : (ofResults rs).total = rs.length := by
  have step : ∀ (rs : List ScriptResult) (s : Summary), (rs.foldl record s).total = s.total + rs.length := by
    intro rs
    induction rs with
    | nil => intro s; rfl
    | cons r rs ih => intro s; rw [List.foldl_cons, ih, total_record, List.length_cons]; omega
  exact (step rs {}).trans (by simp [total])

end Summary

end ScriptRunner
