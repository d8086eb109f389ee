import ScriptRunner.Proofs.Exec.Account

/-!
# Verdicts

A member is well off when its script was found, run once and ended with code 0 (`Succeeded`), or when there was no
script for it (`Skipped`).  After a pass that was not interrupted every member has a result, and its outcome says just
that, whatever the schedule (`Account.verdict`).  The summary of a pass counts a failure for everything else
(`Summary.exitCode_ofResults`).
-/

namespace ScriptRunner

/-- Two lists have the same images if their entries at each position have. -/
theorem map_eq_map_of_getElem? {α β γ : Type} {f : α → γ} {g : β → γ} {as : List α} {bs : List β}
    (hlen : as.length = bs.length) (h : ∀ (i : Nat) a b, as[i]? = some a → bs[i]? = some b → f a = g b) :
    as.map f = bs.map g := by
  refine List.ext_getElem (by simpa using hlen) fun i hi hi' => ?_
  rw [List.getElem_map, List.getElem_map]
  exact h i _ _ (List.getElem?_eq_getElem _) (List.getElem?_eq_getElem _)

namespace Pass

variable {s : RunSettings} {m : Member} {table : Except TableError (Option ScriptTable)} {acts : List Act}

/-- The script of the member was found, called once, not cut off, and ended with code 0. -/
def Succeeded (s : RunSettings) (m : Member) (acts : List Act) : Prop :=
  ∃ scripts line out took, scripts.get? s.invocation.script = some line ∧ out.timedOut = false ∧
    out.exitCode = some 0 ∧
    acts = [.read (.ok (some scripts)),
      .called ⟨m.dir, shellArgv (commandLine line s.invocation.args), s.timeout⟩, .answered (.output out) took]

/-- The member has no script table, or the table lacks the script. -/
def Skipped (s : RunSettings) (acts : List Act) : Prop :=
  acts = [.read (.ok none)] ∨
    ∃ scripts : ScriptTable, scripts.get? s.invocation.script = none ∧ acts = [.read (.ok (some scripts))]

/-- What a table leads to. -/
theorem opening_cases (s : RunSettings) (m : Member) (table : Except TableError (Option ScriptTable)) :
    (∃ reasons, table = .error reasons ∧
        (opening s m table).value = .settled (.failed m.name (.scriptTable (": ".intercalate reasons)))) ∨
      (table = .ok none ∧ (opening s m table).value = .settled (.skipped m.name .noScripts)) ∨
      (∃ scripts, table = .ok (some scripts) ∧ scripts.get? s.invocation.script = none ∧
        (opening s m table).value = .settled (.skipped m.name .scriptNotFound)) ∨
      ∃ scripts line, table = .ok (some scripts) ∧ scripts.get? s.invocation.script = some line ∧
        (opening s m table).value =
          .call ⟨m.dir, shellArgv (commandLine line s.invocation.args), s.timeout⟩ := by
  cases table with
  | error reasons => exact .inl ⟨reasons, rfl, rfl⟩
  | ok table =>
    cases table with
    | none => exact .inr (.inl ⟨rfl, rfl⟩)
    | some scripts =>
      cases hline : scripts.get? s.invocation.script with
      | none => exact .inr (.inr (.inl ⟨scripts, rfl, hline, by simp only [opening, hline]; rfl⟩))
      | some line => exact .inr (.inr (.inr ⟨scripts, line, rfl, hline, by simp only [opening, hline]; rfl⟩))

theorem classify_eq_success_iff {exitCode : Option Int} {timedOut : Bool} {timeout : Option Duration} :
    classify exitCode timedOut timeout = .success ↔ timedOut = false ∧ exitCode = some 0 := by
  unfold classify
  cases timedOut with
  | true => simp
  | false =>
    cases exitCode with
    | none => simp
    | some code => by_cases h : code = 0 <;> simp [h]

/-- What a result says of its member, and what was done for the member. -/
structure Verdict (s : RunSettings) (m : Member) (acts : List Act) (r : ScriptResult) : Prop where
  member : r.member = m.name
  success : r.outcome = .success ↔ Succeeded s m acts
  skipped : (∃ reason, r.outcome = .skipped reason) ↔ Skipped s acts

/-- A failure for a member that is not well off. -/
theorem verdict_failed {kind : FailureKind} (hs : ¬Succeeded s m acts) (hk : ¬Skipped s acts) :
    Verdict s m acts (.failed m.name kind) :=
  ⟨rfl, iff_of_false nofun hs, iff_of_false nofun hk⟩

theorem not_succeeded_of_length (h : acts.length ≠ 3) : ¬Succeeded s m acts := by
  rintro ⟨_, _, _, _, -, -, -, rfl⟩
  exact h rfl

theorem not_skipped_of_length (h : acts.length ≠ 1) : ¬Skipped s acts := by
  rintro (rfl | ⟨_, -, rfl⟩) <;> exact h rfl

theorem verdict_of_settled {r : ScriptResult} (ho : (opening s m table).value = .settled r) :
    Verdict s m [.read table] r := by
  have hno : ¬Succeeded s m [.read table] := not_succeeded_of_length (by simp)
  rcases opening_cases s m table with ⟨reasons, rfl, h⟩ | ⟨rfl, h⟩ | ⟨scripts, rfl, hline, h⟩ | ⟨_, _, -, -, h⟩
  · obtain rfl := Opening.settled.inj (h.symm.trans ho)
    refine verdict_failed hno ?_
    rintro (h | ⟨_, -, h⟩) <;> simp at h
  · obtain rfl := Opening.settled.inj (h.symm.trans ho)
    exact ⟨rfl, iff_of_false nofun hno, iff_of_true ⟨_, rfl⟩ (.inl rfl)⟩
  · obtain rfl := Opening.settled.inj (h.symm.trans ho)
    exact ⟨rfl, iff_of_false nofun hno, iff_of_true ⟨_, rfl⟩ (.inr ⟨scripts, hline, rfl⟩)⟩
  · exact nomatch h.symm.trans ho

/-- The result of a call, or that of a worker which is lost with it. -/
theorem verdict_of_answered {request : Call} (ho : (opening s m table).value = .call request) (reply : Reply)
    (took : Duration) :
    Verdict s m [.read table, .called request, .answered reply took]
      ((closing s m reply took).value.getD (lostResult m)) := by
  have hno : ¬Skipped s [.read table, .called request, .answered reply took] := not_skipped_of_length (by simp)
  rcases opening_cases s m table with ⟨_, -, h⟩ | ⟨-, h⟩ | ⟨_, -, -, h⟩ | ⟨scripts, line, rfl, hline, h⟩
  · exact nomatch h.symm.trans ho
  · exact nomatch h.symm.trans ho
  · exact nomatch h.symm.trans ho
  · obtain rfl := Opening.call.inj (h.symm.trans ho)
    cases reply with
    | lost =>
      refine verdict_failed ?_ hno
      rintro ⟨_, _, _, _, -, -, -, h⟩
      simp at h
    | refused text =>
      refine ⟨rfl, iff_of_false nofun ?_, iff_of_false nofun hno⟩
      rintro ⟨_, _, _, _, -, -, -, h⟩
      simp at h
    | output out =>
      refine ⟨rfl, classify_eq_success_iff.trans ⟨fun hout => ?_, ?_⟩, iff_of_false ?_ hno⟩
      · exact ⟨scripts, line, out, took, hline, hout.1, hout.2, rfl⟩
      · rintro ⟨_, _, out', _, -, htimed, hcode, h⟩
        obtain ⟨rfl, -⟩ : out = out' ∧ took = _ := by simpa using (List.cons.inj (List.cons.inj (List.cons.inj h).2).2).1
        exact ⟨htimed, hcode⟩
      · rintro ⟨reason, h⟩
        have hclass : classify out.exitCode out.timedOut s.timeout = .skipped reason := h
        unfold classify at hclass
        split at hclass
        · cases hclass
        · split at hclass
          · cases hclass
          · split at hclass <;> cases hclass

theorem Done.verdict {o : Option ScriptResult} (h : Done s m acts o) : Verdict s m acts (o.getD (lostResult m)) := by
  cases h with
  | settled ho => exact verdict_of_settled ho
  | answered ho => exact verdict_of_answered ho _ _

variable {group : List Member} {all : Nat → List Act} {i g : Nat} {r : ScriptResult} {rs : List ScriptResult}

theorem Accounts.verdict (h : Accounts s group all i m r) : Verdict s m (all i) r := by
  cases h with
  | done h => exact h.verdict
  | lost h => exact h.verdict
  | forsaken h =>
    rw [h]
    exact verdict_failed (not_succeeded_of_length (by simp)) (not_skipped_of_length (by simp))

/-- Every member of a group that is over has a result, which says what was done for the member. -/
theorem GroupDone.verdict {started : Nat} (h : GroupDone s group all started rs) (hm : group[i]? = some m) :
    ∃ r, rs[i]? = some r ∧ Verdict s m (all i) r := by
  cases h with
  | unstarted ha =>
    refine ⟨_, by rw [List.getElem?_map, hm]; rfl, ?_⟩
    rw [ha]
    exact verdict_failed (not_succeeded_of_length (by simp)) (not_skipped_of_length (by simp))
  | ran _ hlen h =>
    have hi : i < rs.length := hlen ▸ (List.getElem?_eq_some_iff.1 hm).1
    exact ⟨_, List.getElem?_eq_getElem hi, (h i m _ hm (List.getElem?_eq_getElem hi)).verdict⟩

theorem GroupDone.length_eq {started : Nat} (h : GroupDone s group all started rs) : rs.length = group.length := by
  cases h with
  | unstarted => exact List.length_map _
  | ran _ hlen => exact hlen

/-- The results of a group are those of its members, in their order. -/
theorem GroupDone.map_member {started : Nat} (h : GroupDone s group all started rs) :
    rs.map (·.member) = group.map (·.name) := by
  refine map_eq_map_of_getElem? h.length_eq fun i r m hr hm => ?_
  obtain ⟨r', hr', hv⟩ := h.verdict hm
  obtain rfl := Option.some.inj (hr.symm.trans hr')
  exact hv.member

/-! ### A pass that is over -/

variable {plan : Plan} {p : Pass} {ds : List Deed} {moves : List Move} {calls : List CallEvent} {words : List Word}

theorem Account.length_le (h : Account s p ds) : p.results.length ≤ p.plan.groups.length := by
  by_contra hlt
  obtain ⟨group, -, hgroup, -⟩ := h.closed p.plan.groups.length _ (List.getElem?_eq_getElem (Nat.lt_of_not_le hlt))
  simp at hgroup

/-- A pass that is over and was not interrupted has come to every group. -/
theorem Account.complete (h : Account s p ds) (hf : p.phase = .finished) (hu : ∀ g, .interrupted g ∉ ds) :
    p.results.length = p.plan.groups.length :=
  Nat.le_antisymm h.length_le (List.getElem?_eq_none_iff.1 ((h.ended hf).resolve_right (hu _)))

/-- After a pass that was not interrupted, every member of the plan has a result, in the order of the plan. -/
theorem Account.map_member (h : Account s p ds) (hf : p.phase = .finished) (hu : ∀ g, .interrupted g ∉ ds) :
    p.results.flatten.map (·.member) = p.plan.order.map (·.name) := by
  have hgroups : p.results.map (List.map (·.member)) = p.plan.groups.map (List.map (·.name)) := by
    refine map_eq_map_of_getElem? (h.complete hf hu) fun g rs group hrs hgroup => ?_
    obtain ⟨group', started, hgroup', -, hdone⟩ := h.closed g rs hrs
    obtain rfl := Option.some.inj (hgroup.symm.trans hgroup')
    exact hdone.map_member
  rw [List.map_flatten, hgroups, Plan.order, List.map_flatten]

/-- The result at a place of a pass that was not interrupted says what was done for the place. -/
theorem Account.verdict (h : Account s p ds) (hf : p.phase = .finished) (hu : ∀ g, .interrupted g ∉ ds)
    (hm : p.plan.At g i m) :
    ∃ rs r, p.results[g]? = some rs ∧ rs[i]? = some r ∧ Verdict s m (actsAt ds g i) r := by
  obtain ⟨group, hgroup, hm⟩ := hm
  have hg : g < p.results.length := h.complete hf hu ▸ (List.getElem?_eq_some_iff.1 hgroup).1
  obtain ⟨group', started, hgroup', -, hdone⟩ := h.closed g _ (List.getElem?_eq_getElem hg)
  obtain rfl := Option.some.inj (hgroup.symm.trans hgroup')
  obtain ⟨r, hr, hv⟩ := hdone.verdict hm
  exact ⟨_, r, List.getElem?_eq_getElem hg, hr, hv⟩

end Pass

/-! ### Summaries -/

namespace Summary

theorem foldl_record (rs : List ScriptResult) (s : Summary) :
    rs.foldl record s = ⟨s.success + rs.countP ScriptResult.isSuccess, s.failed + rs.countP ScriptResult.isFailure,
      s.skipped + rs.countP ScriptResult.isSkipped⟩ := by
  induction rs generalizing s with
  | nil => rfl
  | cons r rs ih =>
    obtain ⟨member, outcome, exitCode, stdout, stderr, took⟩ := r
    rw [List.foldl_cons, ih, Summary.mk.injEq]
    simp only [List.countP_cons]
    cases outcome <;>
      simp [record, ScriptResult.isSuccess, ScriptResult.isFailure, ScriptResult.isSkipped] <;> omega

/-- A tally counts the results of each kind. -/
theorem ofResults_eq (rs : List ScriptResult) :
    ofResults rs = ⟨rs.countP ScriptResult.isSuccess, rs.countP ScriptResult.isFailure,
      rs.countP ScriptResult.isSkipped⟩ := by
  simp [ofResults, foldl_record]

/-- A run ends with code 0 exactly if there is no failure. -/
theorem exitCode_ofResults (rs : List ScriptResult) :
    ((ofResults rs).exitCode = 0 ↔ ∀ r ∈ rs, r.isFailure = false) ∧ (ofResults rs).exitCode ≤ 1 := by
  unfold exitCode
  rw [ofResults_eq]
  refine ⟨?_, by split <;> decide⟩
  simp

end Summary

end ScriptRunner
