import ScriptRunner.Proofs.Exec.Completion
import ScriptRunner.Proofs.Exec.Verdict
import ScriptRunner.Proofs.Session.Latch
import ScriptRunner.Proofs.Workspace.Loading

/-!
# Exit codes of a single pass

A run that is not stopping when its pass is over ends with code 0 exactly if every selected member is `WellOff`.  That
no group was left out follows from the flag: it never goes back, so that a pass which was interrupted ends while the run
is stopping.  The members of a loaded workspace have names of their own, so that the results of a pass can be told
apart by the names in them.  A session brings every pass to its end whose calls come back.
-/

namespace ScriptRunner

open Pass

theorem ScriptResult.isFailure_eq_false_iff {r : ScriptResult} :
    r.isFailure = false ↔ r.outcome = .success ∨ ∃ reason, r.outcome = .skipped reason := by
  unfold isFailure
  cases r.outcome <;> simp

theorem filter_eq_singleton {α β : Type} [DecidableEq β] {f : α → β} {as : List α} (hn : (as.map f).Nodup) {a : α}
    (ha : a ∈ as) : (as.filter fun b => f b = f a) = [a] := by
  induction as with
  | nil => cases ha
  | cons b bs ih =>
    obtain ⟨hb, hn⟩ := List.nodup_cons.1 hn
    rcases List.mem_cons.1 ha with rfl | ha
    · have hrest : (bs.filter fun b => f b = f a) = [] :=
        List.filter_eq_nil_iff.2 fun b hmem => by simpa using fun heq => hb (List.mem_map.2 ⟨b, hmem, heq⟩)
      rw [List.filter_cons_of_pos (by simp), hrest]
    · have hne : f b ≠ f a := fun heq => hb (heq ▸ List.mem_map_of_mem ha)
      rw [List.filter_cons_of_neg (by simpa using hne), ih hn ha]

namespace Execution

/-- The member has one result: a success, and then its script was found, ran once and ended well, or a skip, and then
there was no script for it. -/
def WellOff (s : RunSettings) (ds : List Deed) (results : List ScriptResult) (m : Member) : Prop :=
  ∃ r, (results.filter fun r => r.member = m.name) = [r] ∧
    (r.outcome = .success ∧ Succeeded s m (actsOf ds m) ∨
      (∃ reason, r.outcome = .skipped reason) ∧ Skipped s (actsOf ds m))

/-- A deed after which a run does not end with code 0: a table that could not be read, a lost worker, or a process that
a signal has ended. -/
def Mishap : Pass.Act → Prop
  | .read (.error _) => True
  | .answered .lost _ => True
  | .answered (.output out) _ => out.exitCode = none
  | _ => False

variable {s : RunSettings} {m : Member} {acts : List Pass.Act} {p : Pass} {ds : List Deed}

theorem not_mishap_of_succeeded (h : Succeeded s m acts) : ∀ act ∈ acts, ¬Mishap act := by
  obtain ⟨scripts, line, out, took, -, -, hcode, rfl⟩ := h
  simp [Mishap, hcode]

theorem not_mishap_of_skipped (h : Skipped s acts) : ∀ act ∈ acts, ¬Mishap act := by
  rcases h with rfl | ⟨scripts, -, rfl⟩ <;> simp [Mishap]

/-- After a pass that was not interrupted, the results without a failure are those of members that are well off. -/
theorem wellOff_iff (h : Account s p ds) (hf : p.phase = .finished) (hu : ∀ g, .interrupted g ∉ ds)
    (hn : (p.plan.order.map (·.name)).Nodup) :
    (∀ r ∈ p.results.flatten, r.isFailure = false) ↔ ∀ m ∈ p.plan.order, WellOff s ds p.results.flatten m := by
  have hnames := h.map_member hf hu
  constructor
  · intro hall m hm
    obtain ⟨g, i, hat⟩ := Plan.exists_at hm
    obtain ⟨rs, r, hrs, hr, hverdict⟩ := h.verdict hf hu hat
    have hmem : r ∈ p.results.flatten :=
      List.mem_flatten.2 ⟨rs, List.mem_of_getElem? hrs, List.mem_of_getElem? hr⟩
    refine ⟨r, ?_, ?_⟩
    · rw [← hverdict.member]
      exact filter_eq_singleton (hnames ▸ hn) hmem
    · rw [actsOf_eq hn.of_map h.places hat]
      exact (ScriptResult.isFailure_eq_false_iff.1 (hall r hmem)).imp (fun hs => ⟨hs, hverdict.success.1 hs⟩)
        fun hs => ⟨hs, hverdict.skipped.1 hs⟩
  · intro hall r hr
    have hname : r.member ∈ p.plan.order.map (·.name) := hnames ▸ List.mem_map_of_mem hr
    obtain ⟨m, hm, heq⟩ := List.mem_map.1 hname
    obtain ⟨r', hfilter, hok⟩ := hall m hm
    obtain rfl : r = r' := by
      rw [← List.mem_singleton, ← hfilter]
      exact List.mem_filter.2 ⟨hr, by simpa using heq.symm⟩
    exact ScriptResult.isFailure_eq_false_iff.2 (hok.imp (·.1) (·.1))

/-- Code 0 means that every group has had a worker and nothing has gone wrong. -/
theorem clean_of_no_failure (h : Account s p ds) (hf : p.phase = .finished) (hu : ∀ g, .interrupted g ∉ ds)
    (hall : ∀ r ∈ p.results.flatten, r.isFailure = false) :
    (∀ (g : Nat) group, p.plan.groups[g]? = some group →
        ∃ started, .opened g started ∈ ds ∧ (group ≠ [] → 0 < started)) ∧
      ∀ g i m act, .did g i m act ∈ ds → ¬Mishap act := by
  refine ⟨fun g group hgroup => ?_, fun g i m act hd => ?_⟩
  · have hg : g < p.results.length := h.complete hf hu ▸ (List.getElem?_eq_some_iff.1 hgroup).1
    have hrs := List.getElem?_eq_getElem hg
    obtain ⟨group', started, hgroup', hopened, hdone⟩ := h.closed g _ hrs
    obtain rfl := Option.some.inj (hgroup.symm.trans hgroup')
    refine ⟨started, hopened, fun hne => Nat.pos_of_ne_zero ?_⟩
    rintro rfl
    -- a group without a worker fails as a whole
    obtain ⟨m, hm⟩ := List.exists_mem_of_ne_nil group hne
    generalize p.results[g] = rs at hdone hrs
    cases hdone with
    | unstarted => exact absurd (hall _ (List.mem_flatten.2 ⟨_, List.mem_of_getElem? hrs, List.mem_map_of_mem hm⟩)) nofun
    | ran hs => exact absurd hs (Nat.lt_irrefl 0)
  · obtain ⟨rs, r, hrs, hr, hverdict⟩ := h.verdict hf hu (h.places g i m act hd)
    have hok := ScriptResult.isFailure_eq_false_iff.1
      (hall r (List.mem_flatten.2 ⟨rs, List.mem_of_getElem? hrs, List.mem_of_getElem? hr⟩))
    have hact : act ∈ actsAt ds g i := mem_actsAt.2 ⟨m, hd⟩
    rcases hok with hok | hok
    · exact not_mishap_of_succeeded (hverdict.success.1 hok) act hact
    · exact not_mishap_of_skipped (hverdict.skipped.1 hok) act hact

/-- A pass over the plan is over after these deeds, and the run is stopping or not.  A stop is never taken back. -/
def Ends (s : RunSettings) (plan : Plan) (ds : List Deed) (p : Pass) (stopping : Bool) : Prop :=
  ∃ moves calls words, Pass.Run s plan moves calls words p ∧ p.phase = .finished ∧ ds = history s plan moves ∧
    ∀ started elapsed, .boundary true started elapsed ∈ moves → stopping = true

theorem Ends.not_interrupted {plan : Plan} (h : Ends s plan ds p false) (g : Nat) : .interrupted g ∉ ds := by
  obtain ⟨moves, calls, words, hrun, -, rfl, hstop⟩ := h
  intro hg
  obtain ⟨started, elapsed, hmem⟩ := hrun.stopping_of_interrupted hg
  exact nomatch hstop started elapsed hmem

/-- The exit code after a single pass over a prepared plan, whatever the schedule, the workers that start or are lost,
and the moment of a stop: 130 if the run is stopping when the pass is over, else 0 if every selected member is well off,
else 1.  With code 0 every group has had a worker, and nothing has gone wrong.  A pass that a session carries out is
such a pass once it is over, and it is over from some number of rounds on exactly if all of its calls come back. -/
theorem exitCode_of_prepared {t : Tree} {cwd : List String} {configured : Option (List String)} {path : String}
    {r : Request} {detect : Detector} {filters : Filters} {prepared : Prepared}
    (hprep : (r.prepare (Workspace.load t cwd configured path) detect filters).run.value = .ok (.ok prepared)) :
    (∀ s ds p stopping, Ends s prepared.plan ds p stopping →
      (stopping = true → exitCode stopping p.summary = 130) ∧
      (stopping = false →
        (exitCode stopping p.summary = 0 ↔ ∀ m ∈ prepared.selected, WellOff s ds p.results.flatten m) ∧
        (exitCode stopping p.summary = 0 ∨ exitCode stopping p.summary = 1)) ∧
      (exitCode stopping p.summary = 0 →
        (∀ (g : Nat) group, prepared.plan.groups[g]? = some group →
          ∃ started, .opened g started ∈ ds ∧ (group ≠ [] → 0 < started)) ∧
        ∀ g i m act, .did g i m act ∈ ds → ¬Mishap act)) ∧
    (∀ s verbose fuel x,
      let d := Pass.run (Session.host verbose) s fuel prepared.plan x
      let stopping := (Session.host verbose).stopping d.world
      d.pass.phase = .finished → (∃ ds, Ends s prepared.plan ds d.pass stopping) ∧
        (once (Session.host verbose) s fuel prepared.plan x).1 = exitCode stopping d.pass.summary) ∧
    ∀ s verbose x,
      (∃ n, ∀ fuel, n ≤ fuel → (Pass.run (Session.host verbose) s fuel prepared.plan x).pass.phase = .finished) ↔
        CallsReturn (Session.host verbose) s prepared.plan x := by
  obtain ⟨w, selected, plan⟩ := prepared
  refine ⟨?_, ?_, fun s verbose x => finished_iff_callsReturn (Session.host verbose) s plan x⟩
  · intro s ds p stopping hends
    have hready := Request.outcome_prepare r (Workspace.load t cwd configured path) detect filters
    rw [hprep] at hready
    obtain ⟨hload, hperm, hsub⟩ := hready.ready_perm
    -- the members of the plan are members of the workspace, whose names are all different
    have hn : (plan.order.map (·.name)).Nodup :=
      (hperm.map _).nodup_iff.2 ((Workspace.nodup_names_of_load hload).sublist (hsub.map _))
    obtain ⟨hzero, hone⟩ := Summary.exitCode_ofResults p.results.flatten
    cases stopping with
    | true => exact ⟨fun _ => rfl, nofun, nofun⟩
    | false =>
      have hu := hends.not_interrupted
      obtain ⟨moves, calls, words, hrun, hf, rfl, -⟩ := hends
      have haccount := hrun.account
      obtain rfl : p.plan = plan := hrun.plan_eq
      refine ⟨nofun, fun _ => ⟨?_, Nat.le_one_iff_eq_zero_or_eq_one.1 hone⟩, fun h => ?_⟩
      · refine hzero.trans ((wellOff_iff haccount hf hu hn).trans ?_)
        exact forall_congr' fun m => by rw [hperm.mem_iff]
      · exact clean_of_no_failure haccount hf hu (hzero.1 h)
  · intro s verbose fuel x d stopping hf
    obtain ⟨moves, calls, words, hrun, hstop⟩ :=
      exists_run_of_latched (Session.latched_host verbose) s fuel plan x
    exact ⟨⟨_, moves, calls, words, hrun, hf, rfl, hstop⟩, rfl⟩

/-- A session in which a script succeeds beside a member without scripts. -/
theorem exitCode_of_prepared_one_skipped :
    let package (manifest : String) : Node := .dir [(Manifest.fileName, .file (Text.encode manifest) 0)]
    let tree : Tree := .dir [("bin", .dir []), ("ws", .dir [("cli", package "\x7b\x7d"),
      ("core", package "\x7b\"scripts\": \x7b\"lint\": \"true\"\x7d\x7d")])]
    let prepare := Request.prepare ⟨none, true, none⟩ (Workspace.load tree [] (some ["*"]) "/ws") (fun _ _ _ => pure []) ∅
    let s : RunSettings := ⟨⟨"lint", []⟩, none, 2⟩
    let x : Session :=
      { runner := { kernel := { tree := tree, clock := 0 }, environment := [("PATH", "/bin")] }, cwd := [], lastCue := 0 }
    ∃ prepared, prepare.run.value = .ok (.ok prepared) ∧
      let d := Pass.run (Session.host false) s 20 prepared.plan x
      (Pass.run (Session.host false) s 5 prepared.plan x).calls.length = 1 ∧
        CallsReturn (Session.host false) s prepared.plan x ∧ (once (Session.host false) s 20 prepared.plan x).1 = 0 ∧
        ∃ ds, Ends s prepared.plan ds d.pass false ∧ exitCode false d.pass.summary = 0 ∧
          ∀ m ∈ prepared.selected, WellOff s ds d.pass.results.flatten m := by
  intro package tree prepare s x
  have heval : (prepare.run.value.toOption.bind Except.toOption).any fun prepared =>
      let d := Pass.run (Session.host false) s 20 prepared.plan x
      decide ((Pass.run (Session.host false) s 5 prepared.plan x).calls.length = 1 ∧ d.pass.phase = .finished ∧
        (Session.host false).stopping d.world = false ∧ (once (Session.host false) s 20 prepared.plan x).1 = 0) := by
    decide +kernel
  obtain ⟨prepared, hprep, heval⟩ := (Option.any_eq_true _ _).1 heval
  obtain ⟨value, hprep, hvalue⟩ := Option.bind_eq_some_iff.1 hprep
  obtain rfl := except_toOption_eq_some.1 hvalue
  have hprep := except_toOption_eq_some.1 hprep
  obtain ⟨hcall, hf, hstop, hcode⟩ := of_decide_eq_true heval
  obtain ⟨hends, hdriven, hover⟩ := exitCode_of_prepared hprep
  obtain ⟨⟨ds, hpass⟩, honce⟩ := hdriven s false 20 x hf
  rw [hstop] at hpass honce
  have hzero := honce.symm.trans hcode
  refine ⟨prepared, hprep, hcall, (hover s false x).1 ⟨20, fun fuel hfuel => ?_⟩, hcode, ds, hpass, hzero, ?_⟩
  · rwa [run_of_finished hf hfuel]
  · exact ((hends s ds _ false hpass).2.1 rfl).1.1 hzero

end Execution

end ScriptRunner
