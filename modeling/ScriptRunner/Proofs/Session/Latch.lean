import ScriptRunner.Proofs.Exec.Driving
import ScriptRunner.Session.Basic

/-!
# The stop of a session

Only Ctrl-C changes whether the runner of a session is stopping, and it never takes a stop back; so a session is a host
that never takes back a stop (`Session.latched_host`).
-/

namespace ScriptRunner

theorem Live.stopping_spawn? {l l' : Live} {group : Nat} (h : l.spawn? group = some l') : l'.stopping = l.stopping := by
  unfold spawn? at h
  split at h
  · cases h
  · obtain rfl := Option.some.inj h
    rfl

namespace Runner

theorem stopping_begin (r : Runner) (c : Call) : (r.begin c).2.live.stopping = r.live.stopping := by
  unfold begin
  split
  · rfl
  · dsimp only
    split
    · rfl
    · exact Live.stopping_spawn? ‹_›

theorem stopping_look (r : Runner) (j : Job) (nextPoll : Nat) : (r.look j nextPoll).live.stopping = r.live.stopping := by
  unfold look
  dsimp only
  split
  · split <;> rfl
  · split
    · rfl
    · split
      · rfl
      · split <;> rfl

theorem stopping_poll (r : Runner) (id : Nat) : (r.poll id).2.live.stopping = r.live.stopping := by
  unfold poll
  split
  · rfl
  · rename_i j _
    dsimp only
    cases j.stage with
    | running nextPoll =>
      rw [← stopping_look r j nextPoll]
      dsimp only
      split
      · split <;> rfl
      · rfl
    | draining =>
      dsimp only
      split
      · split <;> rfl
      · rfl

theorem stopping_skip (r : Runner) (limit : Option Nat) : (r.skip limit).live.stopping = r.live.stopping := by
  unfold skip
  dsimp only
  split <;> rfl

end Runner

namespace Session

theorem runner_log (s : Session) (e : Log.Entry) : (s.log e).runner = s.runner := by
  unfold log
  split <;> rfl

theorem runner_hear (verbose : Bool) (s : Session) (w : Pass.Word) : (hear verbose s w).runner = s.runner := by
  cases w with
  | entry e => exact runner_log s e
  | event e => cases e <;> rfl

theorem runner_tell (verbose : Bool) (ws : List Pass.Word) (s : Session) :
    ((host verbose).tell ws s).runner = s.runner := by
  have hall : ∀ (ws : List Pass.Word) (s : Session), (ws.foldl (hear verbose) s).runner = s.runner := by
    intro ws
    induction ws with
    | nil => exact fun _ => rfl
    | cons w ws ih => exact fun s => (ih _).trans (runner_hear verbose s w)
  exact hall ws s

theorem stopping_fire {s : Session} {c : Cue} (h : s.runner.live.stopping = true) :
    (s.fire c).runner.live.stopping = true := by
  unfold fire
  dsimp only
  split
  · unfold interrupt
    dsimp only
    rw [runner_log]
    rfl
  · exact h

theorem stopping_attend {s : Session} (h : s.runner.live.stopping = true) :
    s.attend.runner.live.stopping = true := by
  have hall : ∀ (cs : List Cue) (s : Session), s.runner.live.stopping = true →
      (attendTo cs s).runner.live.stopping = true := by
    intro cs
    induction cs with
    | nil => exact fun _ h => h
    | cons c cs ih =>
      intro s h
      unfold attendTo
      split
      · exact ih _ (stopping_fire h)
      · exact h
  exact hall s.cues s h

theorem stopping_advance (s : Session) (limit : Option Nat) :
    (s.advance limit).runner.live.stopping = s.runner.live.stopping := by
  unfold advance
  dsimp only
  split
  · rfl
  · exact Runner.stopping_skip _ _

/-- A session never takes back a stop. -/
theorem latched_host (verbose : Bool) : (host verbose).Latched where
  tell ws s h := by
    have hrunner := runner_tell verbose ws s
    exact (congrArg (·.live.stopping) hrunner).trans h
  table _ _ h := h
  begin request s h := by
    refine Eq.trans ?_ ((s.runner.stopping_begin request).trans h)
    simp only [host]
    split
    · rw [runner_log]
    · rfl
  reply call s h := by
    cases call with
    | error => exact h
    | ok id => exact (s.runner.stopping_poll id).trans h
  wait s h := (stopping_advance _ none).trans (stopping_attend h)

end Session

end ScriptRunner
