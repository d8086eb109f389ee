import ScriptRunner.Proofs.Exec.Interruption
import ScriptRunner.Proofs.Planning.Preparation
import ScriptRunner.Proofs.Watch.Affected
import ScriptRunner.Proofs.Watch.Differences
import ScriptRunner.Proofs.Workspace.Ownership
import ScriptRunner.Session.Execution

/-!
# The exit code of a watch

A watch ends with the code of its last pass.  `World.tracked` remembers where the passes begin, and `Passes` says what
is true of them along the rounds of the loop.  Every pass has something to run, so that only a stop keeps it from
beginning a group (`results_ne_nil_of_not_stopping`).  The stop is noticed by the next sleep at the latest; but when it
comes after the last sleep before a pass, that pass begins no group, counts no failure, and hides those of the pass
before it (`Execution.failure_hidden_iff`).
-/

namespace ScriptRunner

namespace Watch

variable {σ : Type}

/-- The beginning of a pass: its plan, and the state of the world. -/
structure Start (σ : Type) where
  plan : Plan
  world : σ
  deriving DecidableEq

/-- The same world, which remembers the passes that begin in it. -/
def World.tracked (env : World σ) : World (σ × List (Start σ)) where
  idle x := let r := env.idle x.1; (r.1, r.2, x.2)
  settle x := let r := env.settle x.1; (r.1, r.2, x.2)
  scan previous x := let r := env.scan previous x.1; (r.1, r.2, x.2)
  note e x := (env.note e x.1, x.2)
  announce changes plan x := (env.announce changes plan x.1, x.2)
  run plan x := let r := env.run plan x.1; (r.1, r.2, x.2 ++ [⟨plan, x.1⟩])

/-- What a pass comes to. -/
def Start.outcome (env : World σ) (e : Start σ) : Summary × σ := env.run e.plan e.world

variable {env : World σ} {w : Watcher} {s s' final : State} {x y : σ} {es : List (Start σ)} {o : Option State}

/-- What one round makes of the state, with the pass that begins in it. -/
inductive Turn (env : World σ) (w : Watcher) (s : State) (x : σ) : List (Start σ) → Option State → σ → Prop
  | stopped {y : σ} : Turn env w s x [] none y
  | quiet {s' : State} {y : σ} (hi : (env.idle x).1 = false) (hl : s'.last = s.last) : Turn env w s x [] (some s') y
  | pass {s' : State} {e : Start σ} {old new : Snapshot} (hi : (env.idle x).1 = false) (hd : w.diff old new ≠ [])
    (hp : e.plan = w.planFor (w.diff old new)) (hl : s'.last = some (e.outcome env).1) :
    Turn env w s x [e] (some s') (e.outcome env).2

theorem exists_turn (env : World σ) (w : Watcher) (s : State) (x : σ) (before : List (Start σ)) :
    ∃ es o y, Turn env w s x es o y ∧ round env w s x = (o, y) ∧
      round env.tracked w s (x, before) = (o, y, before ++ es) := by
  unfold round
  rcases hidle : env.idle x with ⟨_ | _, x₁⟩
  · have hi : (env.idle x).1 = false := by rw [hidle]
    rcases hscan : env.scan (some s.baseline) x₁ with ⟨current, x₂⟩
    simp only [World.tracked, hidle, hscan, Bool.false_eq_true, if_false]
    by_cases hseen : w.diff s.baseline current = []
    · simp only [List.isEmpty_iff, if_pos hseen]
      refine ⟨[], _, x₂, .quiet hi ?_, rfl, ?_⟩
      · rfl
      · rw [List.append_nil]
    · simp only [List.isEmpty_iff, if_neg hseen]
      generalize env.note _ x₂ = x₃
      rcases hsettle : env.settle x₃ with ⟨_ | _, x₄⟩
      · rcases hscan' : env.scan (some current) x₄ with ⟨settled, x₅⟩
        simp only [hsettle, hscan', Bool.false_eq_true, if_false]
        by_cases hsettled : w.diff s.baseline settled = []
        · simp only [if_pos hsettled]
          refine ⟨[], _, _, .quiet hi ?_, rfl, ?_⟩
          · rfl
          · rw [List.append_nil]
        · simp only [if_neg hsettled, trigger]
          exact ⟨[⟨_, _⟩], _, _, .pass hi hsettled rfl rfl, rfl, rfl⟩
      · simp only [hsettle, if_true]
        exact ⟨[], none, x₄, .stopped, rfl, by rw [List.append_nil]⟩
  · simp only [World.tracked, hidle, if_true]
    exact ⟨[], none, x₁, .stopped, rfl, by rw [List.append_nil]⟩

/-- What is true of the passes that begin in some rounds from a state on. -/
structure Passes (env : World σ) (w : Watcher) (s : State) (x : σ) (es : List (Start σ)) (final : State) : Prop where
  last : final.last = (es.getLast?.map fun e => (e.outcome env).1).or s.last
  changed : ∀ e ∈ es, ∃ old new, w.diff old new ≠ [] ∧ e.plan = w.planFor (w.diff old new)
  /-- The sleep before the first pass was not cut short. -/
  rested : es ≠ [] → (env.idle x).1 = false
  /-- Neither was the sleep after each pass but the last. -/
  chain : es.IsChain fun e _ => (env.idle (e.outcome env).2).1 = false

theorem Passes.quiet (h : Passes env w s' y es final) (hi : (env.idle x).1 = false) (hl : s'.last = s.last) :
    Passes env w s x es final :=
  ⟨hl ▸ h.last, h.changed, fun _ => hi, h.chain⟩

theorem Passes.pass {e : Start σ} {old new : Snapshot} (h : Passes env w s' (e.outcome env).2 es final)
    (hi : (env.idle x).1 = false) (hd : w.diff old new ≠ []) (hp : e.plan = w.planFor (w.diff old new))
    (hl : s'.last = some (e.outcome env).1) : Passes env w s x (e :: es) final := by
  refine ⟨?_, List.forall_mem_cons.2 ⟨⟨old, new, hd, hp⟩, h.changed⟩, fun _ => hi, ?_⟩
  · rw [h.last, hl, List.getLast?_cons]
    cases es.getLast? <;> rfl
  · refine List.isChain_cons.2 ⟨fun e' he' => h.rested ?_, h.chain⟩
    rintro rfl
    cases he'

theorem exists_passes (env : World σ) (w : Watcher) (fuel : Nat) (s : State) (x : σ) (before : List (Start σ)) :
    ∃ es final y, rounds env w fuel s x = (final, y) ∧
      rounds env.tracked w fuel s (x, before) = (final, y, before ++ es) ∧ Passes env w s x es final := by
  induction fuel generalizing s x before with
  | zero => exact ⟨[], s, x, rfl, by rw [List.append_nil]; rfl, rfl, nofun, nofun, .nil⟩
  | succ fuel ih =>
    obtain ⟨es, o, y, hturn, hround, htracked⟩ := exists_turn env w s x before
    simp only [rounds, hround, htracked]
    cases hturn with
    | stopped => exact ⟨[], s, y, rfl, rfl, rfl, nofun, nofun, .nil⟩
    | @quiet s' _ hi hl =>
      obtain ⟨es, final, z, hrounds, htracked, hpasses⟩ := ih s' y (before ++ [])
      refine ⟨es, final, z, hrounds, htracked.trans ?_, hpasses.quiet hi hl⟩
      rw [List.append_nil]
    | @pass s' e old new hi hd hp hl =>
      obtain ⟨es, final, z, hrounds, htracked, hpasses⟩ := ih s' (e.outcome env).2 (before ++ [e])
      refine ⟨e :: es, final, z, hrounds, htracked.trans ?_, hpasses.pass hi hd hp hl⟩
      rw [List.append_assoc, List.singleton_append]

end Watch

namespace Watcher

variable {r : Request} {load : Attempt Workspace} {detect : Detector} {filters : Filters} {p : Prepared}
  {watching : WatchSettings} {w : Watcher}

/-- The watcher of a prepared request has something to run, whatever has changed. -/
theorem groups_ne_nil_of_prepared (hp : (r.prepare load detect filters).run.value = .ok (.ok p))
    (hw : ofSettings p.selected p.workspace.dependencies p.plan watching = .ok w) :
    w.plan.groups ≠ [] ∧ ∀ old new, w.diff old new ≠ [] → (w.planFor (w.diff old new)).groups ≠ [] := by
  have hready := Request.outcome_prepare r load detect filters
  rw [hp] at hready
  obtain ⟨-, hperm, -⟩ := hready.ready_perm
  have hne : p.selected ≠ [] := by
    cases hready with
    | ready _ _ _ hne => exact hne
  have hgroups : ∀ {plan : Plan} {m : Member}, m ∈ plan.order → plan.groups ≠ [] := by
    intro plan m hm hnil
    rw [Plan.order, hnil] at hm
    cases hm
  obtain ⟨m, hm⟩ := List.exists_mem_of_ne_nil _ hne
  have hplan : p.plan.groups ≠ [] := hgroups (hperm.mem_iff.2 hm)
  obtain ⟨options, -, heq⟩ := ofSettings_eq_ok_iff.1 hw
  have hdiff : w.diff = Snapshot.diff p.selected := by
    rw [heq]
    rfl
  refine ⟨heq ▸ hplan, fun old new hd => ?_⟩
  rw [hdiff] at hd ⊢
  rcases hr : watching.rerun with _ | _
  · rw [heq]
    simpa only [planFor, hr] using hplan
  · have hmem : ∀ c ∈ Snapshot.diff p.selected old new, c.member ∈ p.selected := by
      intro c hc
      obtain ⟨i, hi⟩ := Member.exists_ownsAt (Snapshot.mem_diff_iff.1 hc).2
      exact hi.mem
    obtain ⟨c, hc⟩ := List.exists_mem_of_ne_nil _ hd
    exact hgroups ((mem_planFor_iff_of_perm hperm hw hr hmem).2 (reached_of_mem hc (hmem c hc)))

end Watcher

namespace Execution

open Watch (Start Passes)

variable {σ τ : Type} {s : Surroundings σ τ} {settings : RunSettings} {fuel : Nat} {w : Watcher} {x : σ}

/-- The pass that begins there, and the state of the world after it. -/
def driveOf (s : Surroundings σ τ) (settings : RunSettings) (fuel : Nat) (e : Start σ) : Pass.Drive σ τ :=
  Pass.run s.toHost settings fuel e.plan e.world

/-- Where the passes of a watch begin, the first one included. -/
def passesOf (s : Surroundings σ τ) (settings : RunSettings) (fuel : Nat) (w : Watcher) (x : σ) : List (Start σ) :=
  let env := (watchWorld s settings fuel).tracked
  let (baseline, _, x, es) := Watch.runInitial env w (x, [])
  (Watch.run env w fuel baseline (s.print (greeting w.members.length) x, es)).2.2

/-- A watch that goes on after its first pass ends with the code of its last one. -/
theorem exists_passesOf (hgoes : s.stopping (Watch.runInitial (watchWorld s settings fuel) w x).2.2 = false) :
    ∃ first es baseline final y, passesOf s settings fuel w x = first :: es ∧ first.plan = w.plan ∧
      s.stopping (driveOf s settings fuel first).world = false ∧
      Passes (watchWorld s settings fuel) w ⟨baseline, 0, none⟩ y es final ∧
      (watched s settings fuel w x).1 = (driveOf s settings fuel (es.getLast?.getD first)).pass.summary.exitCode := by
  let env := watchWorld s settings fuel
  let baseline := (s.scan none x).1
  let first : Start σ := ⟨w.plan, (s.scan none x).2⟩
  let y := env.note ⟨.info, "watching for changes",
    [("members", .number w.members.length), ("files", .number baseline.size), ("rerun", .plain w.rerun.name)]⟩
    (s.print (greeting w.members.length) (driveOf s settings fuel first).world)
  have hworld : s.stopping (driveOf s settings fuel first).world = false := hgoes
  obtain ⟨es, final, z, hrounds, htracked, hpasses⟩ :=
    Watch.exists_passes env w fuel ⟨baseline, 0, none⟩ y [first]
  have hall : passesOf s settings fuel w x =
      (Watch.rounds env.tracked w fuel ⟨baseline, 0, none⟩ (y, [first])).2.2 := rfl
  have hcode : (watched s settings fuel w x).1 =
      ((Watch.rounds env w fuel ⟨baseline, 0, none⟩ y).1.last.getD (first.outcome env).1).exitCode := by
    have hne : ¬s.stopping (Watch.runInitial (watchWorld s settings fuel) w x).2.2 = true := by
      rw [hgoes]
      exact Bool.false_ne_true
    unfold watched
    exact congrArg Prod.fst (if_neg hne)
  refine ⟨first, es, baseline, final, y, ?_, rfl, hworld, hpasses, ?_⟩
  · rw [hall, htracked]
    rfl
  · rw [hcode, hrounds, hpasses.last]
    cases es.getLast? <;> rfl

/-- A world that is stopping when a pass begins is stopping when it is over. -/
theorem stopping_of_latched (hl : s.toHost.Latched) (settings : RunSettings) (fuel : Nat) {e : Start σ}
    (h : s.stopping e.world = true) : s.stopping (driveOf s settings fuel e).world = true := by
  have hk : Pass.Keeps s.toHost settings fun _ y => s.stopping y = true :=
    ⟨fun _ _ h => hl.tell _ _ h, fun m h => hl.table m _ h, fun request h => hl.begin request _ h,
      fun call h => hl.reply call _ h, fun h => hl.wait _ h⟩
  have hstart : Pass.Drive.Has (fun _ y => s.stopping y = true)
      (⟨{ plan := e.plan }, e.world, [], s.now e.world⟩ : Pass.Drive σ τ) := h
  exact hk.drive hstart fuel

variable {r : Request} {load : Attempt Workspace} {detect : Detector} {filters : Filters} {p : Prepared}
  {watching : WatchSettings}

/-- A pass that begins no group has begun while the run was stopping. -/
theorem stopping_of_results_eq_nil (hp : (r.prepare load detect filters).run.value = .ok (.ok p))
    (hw : Watcher.ofSettings p.selected p.workspace.dependencies p.plan watching = .ok w)
    (hgoes : s.stopping (Watch.runInitial (watchWorld s settings fuel) w x).2.2 = false) {e : Start σ}
    (he : e ∈ passesOf s settings fuel w x) (hover : (driveOf s settings fuel e).pass.phase = .finished)
    (hnil : (driveOf s settings fuel e).pass.results = []) : s.stopping e.world = true := by
  obtain ⟨first, es, _, _, _, hall, hplan, -, hpasses, -⟩ := exists_passesOf hgoes
  obtain ⟨hgroups, hchanged⟩ := Watcher.groups_ne_nil_of_prepared hp hw
  have hplanned : e.plan.groups ≠ [] := by
    rw [hall] at he
    rcases List.mem_cons.1 he with rfl | he
    · rwa [hplan]
    · obtain ⟨old, new, hd, heq⟩ := hpasses.changed e he
      rw [heq]
      exact hchanged old new hd
  by_contra hstop
  exact Pass.results_ne_nil_of_not_stopping (Bool.eq_false_of_not_eq_true hstop) hplanned hover hnil

/-- The run is not stopping after a pass that another one follows. -/
theorem not_stopping_of_followed (hgoes : s.stopping (Watch.runInitial (watchWorld s settings fuel) w x).2.2 = false)
    (hrests : ∀ y, s.stopping y = true → (s.idle y).1 = true) {before after : List (Start σ)} {e : Start σ}
    (hsplit : passesOf s settings fuel w x = before ++ e :: after) (hne : after ≠ []) :
    s.stopping (driveOf s settings fuel e).world = false := by
  obtain ⟨first, es, _, _, _, hall, -, hfirst, hpasses, -⟩ := exists_passesOf hgoes
  obtain ⟨e', rest, rfl⟩ := List.exists_cons_of_ne_nil hne
  rw [hsplit] at hall
  rcases before with _ | ⟨b, before⟩
  · obtain ⟨rfl, -⟩ := List.cons.inj hall
    exact hfirst
  · -- the watch has slept on after the pass
    obtain ⟨-, rfl⟩ := List.cons.inj hall
    have hslept := (List.isChain_append_cons_cons.1 hpasses.chain).2.1
    by_contra hstop
    have hwoken := hrests _ (Bool.eq_true_of_not_eq_false hstop)
    exact Bool.false_ne_true (hslept.symm.trans hwoken)

/-- A watch that goes on after its first pass ends with the exit code of its last pass. -/
theorem exists_last (hgoes : s.stopping (Watch.runInitial (watchWorld s settings fuel) w x).2.2 = false) :
    ∃ e, (passesOf s settings fuel w x).getLast? = some e ∧
      (watched s settings fuel w x).1 = (driveOf s settings fuel e).pass.summary.exitCode := by
  obtain ⟨first, es, _, _, _, hall, -, -, -, hcode⟩ := exists_passesOf hgoes
  refine ⟨_, ?_, hcode⟩
  rw [hall, List.getLast?_cons]

/-- The exit code of a pass says whether a member has failed. -/
theorem exitCode_eq_zero_iff (e : Start σ) : (driveOf s settings fuel e).pass.summary.exitCode = 0 ↔
    ∀ r ∈ (driveOf s settings fuel e).pass.results.flatten, r.isFailure = false :=
  (Summary.exitCode_ofResults _).1

/-- The exit code of a watch that goes on after its first pass is that of its last pass.  So the failure of a pass that
began a group, when the passes after it began none, shows in the code exactly if no pass came after it.  A pass that
begins no group began while the run was stopping; if the sleeps report a stop, which is never taken back, then it was
the last one. -/
theorem failure_hidden_iff (hp : (r.prepare load detect filters).run.value = .ok (.ok p))
    (hw : Watcher.ofSettings p.selected p.workspace.dependencies p.plan watching = .ok w)
    (hgoes : s.stopping (Watch.runInitial (watchWorld s settings fuel) w x).2.2 = false)
    (hover : ∀ e ∈ passesOf s settings fuel w x, (driveOf s settings fuel e).pass.phase = .finished) :
    let pass e := (driveOf s settings fuel e).pass
    (∃ e, (passesOf s settings fuel w x).getLast? = some e ∧
      (watched s settings fuel w x).1 = (pass e).summary.exitCode) ∧
    (∀ before e after, passesOf s settings fuel w x = before ++ e :: after → (pass e).results ≠ [] →
      (∃ r ∈ (pass e).results.flatten, r.isFailure = true) → (∀ e' ∈ after, (pass e').results = []) →
      ((watched s settings fuel w x).1 = 0 ↔ after ≠ [])) ∧
    (∀ e ∈ passesOf s settings fuel w x, (pass e).results = [] → s.stopping e.world = true) ∧
    (s.toHost.Latched → (∀ y, s.stopping y = true → (s.idle y).1 = true) →
      ∀ before e after, passesOf s settings fuel w x = before ++ e :: after → after ≠ [] →
        s.stopping e.world = false ∧ (pass e).results ≠ []) := by
  intro pass
  obtain ⟨last, hlast, hcode⟩ := exists_last hgoes
  have hempty : ∀ e ∈ passesOf s settings fuel w x, (pass e).results = [] → s.stopping e.world = true :=
    fun e he => stopping_of_results_eq_nil hp hw hgoes he (hover e he)
  refine ⟨⟨last, hlast, hcode⟩, ?_, hempty, ?_⟩
  · rintro before e after hsplit - ⟨r, hr, hfail⟩ hnone
    rw [hcode, exitCode_eq_zero_iff]
    rw [hsplit, List.getLast?_append_cons] at hlast
    rcases List.eq_nil_or_concat after with rfl | ⟨after', e', rfl⟩
    · -- the failing pass is the last one
      obtain rfl : e = last := Option.some.inj hlast
      refine iff_of_false (fun hnone => ?_) (fun h => h rfl)
      exact Bool.false_ne_true ((hnone r hr).symm.trans hfail)
    · rw [List.concat_eq_append, ← List.cons_append, List.getLast?_concat] at hlast
      obtain rfl : e' = last := Option.some.inj hlast
      have hnil : (driveOf s settings fuel e').pass.results = [] := hnone e' (by simp)
      refine iff_of_true ?_ (by simp)
      rw [hnil]
      exact nofun
  · intro hl hrests before e after hsplit hne
    have hgo : s.stopping e.world = false := by
      by_contra hstop
      have hstopped := stopping_of_latched hl settings fuel (Bool.eq_true_of_not_eq_false hstop)
      exact Bool.false_ne_true ((not_stopping_of_followed hgoes hrests hsplit hne).symm.trans hstopped)
    refine ⟨hgo, fun hnil => ?_⟩
    have hstop := hempty e (by simp [hsplit]) hnil
    exact Bool.false_ne_true (hgo.symm.trans hstop)

/-- A world that counts its scans.  No table can be read, a file of `/ws/a` is new from the second scan on, and the run
is stopped during the scan of the given number. -/
def troubled (number : Nat) : Surroundings Nat Unit where
  now _ := ⟨0⟩
  stopping x := number ≤ x
  startable wanted _ := wanted
  tell _ x := x
  table _ x := (.error ["denied"], x)
  begin _ x := ((), x)
  reply? _ x := (none, x)
  wait x := x
  idle x := (number ≤ x, x)
  settle x := (number ≤ x, x)
  scan _ x := (if x = 0 then ∅ else SortedMap.ofList [(["/", "ws", "a", "new.js"], ⟨1, 1, none⟩)], x + 1)
  announce _ _ x := x
  print _ x := x

theorem latched_troubled (number : Nat) : (troubled number).toHost.Latched :=
  ⟨fun _ _ h => h, fun _ _ h => h, fun _ _ h => h, fun _ _ h => h, fun _ h => h⟩

/-- The stop comes after the second pass, whose failure shows. -/
theorem failure_hidden_iff_shown :
    let a : Member := ⟨"a", "a", "/ws/a", none, none⟩
    let w : Watcher := ⟨[a], Graph.ofMembers [a] ∅, .flat [a], .all, ⟨[], false⟩⟩
    let settings : RunSettings := ⟨⟨"build", []⟩, none, 1⟩
    let s : Surroundings Nat Unit := troubled 4
    s.toHost.Latched ∧ (∀ y, s.stopping y = true → (s.idle y).1 = true) ∧
      passesOf s settings 20 w 0 = [⟨.flat [a], 1⟩] ++ ⟨.flat [a], 3⟩ :: [] ∧
      (watched s settings 20 w 0).1 ≠ 0 := by
  intro a w settings s
  have hkept : Request.matching .all ⟨"/ws", [a], ∅⟩ = [a] := by decide +kernel
  have hp : (Request.prepare ⟨none, false, none⟩ (pure ⟨"/ws", [a], ∅⟩) (fun _ _ _ => pure []) ∅).run.value =
      .ok (.ok ⟨⟨"/ws", [a], ∅⟩, [a], .flat [a]⟩) := by
    rw [Request.prepare_flat rfl rfl rfl rfl (by rw [hkept]; exact List.cons_ne_nil _ _), hkept]
  have hw : Watcher.ofSettings [a] ∅ (.flat [a]) { exclude := [] } = .ok w := rfl
  have hgoes : s.stopping (Watch.runInitial (watchWorld s settings 20) w 0).2.2 = false := by decide +kernel
  have hover : ∀ e ∈ passesOf s settings 20 w 0, (driveOf s settings 20 e).pass.phase = .finished := by decide +kernel
  have hpasses : passesOf s settings 20 w 0 = [⟨.flat [a], 1⟩] ++ ⟨.flat [a], 3⟩ :: [] := by decide +kernel
  have hbegan : (driveOf s settings 20 ⟨.flat [a], 3⟩).pass.results ≠ [] := by decide +kernel
  have hfail : ∃ r ∈ (driveOf s settings 20 ⟨.flat [a], 3⟩).pass.results.flatten, r.isFailure = true := by
    decide +kernel
  obtain ⟨-, hshows, -, -⟩ := failure_hidden_iff hp hw hgoes hover
  exact ⟨latched_troubled 4, fun _ h => h, hpasses,
    fun hzero => (hshows _ _ _ hpasses hbegan hfail nofun).1 hzero rfl⟩

/-- The stop comes during the scan before the second pass, which hides the failure of the first. -/
theorem failure_hidden_iff_stopped_in_scan :
    let a : Member := ⟨"a", "a", "/ws/a", none, none⟩
    let w : Watcher := ⟨[a], Graph.ofMembers [a] ∅, .flat [a], .all, ⟨[], false⟩⟩
    let settings : RunSettings := ⟨⟨"build", []⟩, none, 1⟩
    let s : Surroundings Nat Unit := troubled 3
    (Request.prepare ⟨none, false, none⟩ (pure ⟨"/ws", [a], ∅⟩) (fun _ _ _ => pure []) ∅).run.value =
        .ok (.ok ⟨⟨"/ws", [a], ∅⟩, [a], .flat [a]⟩) ∧
      Watcher.ofSettings [a] ∅ (.flat [a]) { exclude := [] } = .ok w ∧
      s.stopping (Watch.runInitial (watchWorld s settings 20) w 0).2.2 = false ∧
      ∃ first second, passesOf s settings 20 w 0 = [first, second] ∧
        (driveOf s settings 20 first).pass.phase = .finished ∧
        (∃ r ∈ (driveOf s settings 20 first).pass.results.flatten, r.isFailure = true) ∧
        (driveOf s settings 20 second).pass.phase = .finished ∧ (driveOf s settings 20 second).pass.results = [] ∧
        (watched s settings 20 w 0).1 = 0 := by
  intro a w settings s
  have hkept : Request.matching .all ⟨"/ws", [a], ∅⟩ = [a] := by decide +kernel
  refine ⟨?_, rfl, by decide +kernel, ⟨.flat [a], 1⟩, ⟨.flat [a], 3⟩, by decide +kernel, by decide +kernel,
    by decide +kernel, by decide +kernel, by decide +kernel, by decide +kernel⟩
  rw [Request.prepare_flat rfl rfl rfl rfl (by rw [hkept]; exact List.cons_ne_nil _ _), hkept]

end Execution

end ScriptRunner
