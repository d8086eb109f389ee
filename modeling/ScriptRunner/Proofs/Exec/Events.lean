import ScriptRunner.Proofs.Exec.PassRun

/-!
# The report of a pass

Whatever the schedule, a pass reports its groups one after another: each group that it opens, then, once the group is
over, the results of its members in their order (`report`).  What a run has reported at any moment is the report of the
groups that are over, with the opening of the group that runs, or with the summary at the end of the pass
(`Run.reported`).
-/

namespace ScriptRunner

namespace Pass

open Report (Event)

/-- The report events among some words. -/
def eventsOf (ws : List Word) : List Event :=
  ws.filterMap fun
    | .event e => some e
    | .entry _ => none

/-- The opening of a group at a place of the plan. -/
def opened (plan : Plan) (g : Nat) (group : List Member) : Event :=
  .groupStarted g plan.groups.length (group.map (·.name))

/-- The report of groups that are over. -/
def report (plan : Plan) (results : List (List ScriptResult)) : List Event :=
  results.zipIdx.flatMap fun e => opened plan e.2 (plan.groups.getD e.2 []) :: e.1.map Event.memberFinished

/-- What a pass has reported. -/
inductive Reported (p : Pass) : List Event → Prop
  | between (hp : p.phase = .between) : Reported p (report p.plan p.results)
  | running {group : List Member} {pool : Pool ScriptResult} (hp : p.phase = .running group pool)
    (hg : p.nextGroup? = some group) : Reported p (report p.plan p.results ++ [opened p.plan p.results.length group])
  | finished {elapsed : Duration} (hp : p.phase = .finished) :
    Reported p (report p.plan p.results ++ [.runFinished p.summary elapsed])

variable {s : RunSettings} {plan : Plan} {p q : Pass} {move : Move} {moves : List Move} {calls : List CallEvent}
  {words ws : List Word} {group : List Member} {pool : Pool ScriptResult} {es : List Event}

@[simp] theorem eventsOf_append (ws vs : List Word) : eventsOf (ws ++ vs) = eventsOf ws ++ eventsOf vs :=
  List.filterMap_append

@[simp] theorem eventsOf_entries (es : List Log.Entry) : eventsOf (es.map Word.entry) = [] := by
  simp [eventsOf]

@[simp] theorem eventsOf_resultEvents (rs : List ScriptResult) :
    eventsOf (resultEvents rs) = rs.map Event.memberFinished := by
  simp [eventsOf, resultEvents]

theorem report_snoc {results : List (List ScriptResult)} (hg : plan.groups[results.length]? = some group)
    (rs : List ScriptResult) :
    report plan (results ++ [rs]) =
      report plan results ++ opened plan results.length group :: rs.map Event.memberFinished := by
  simp [report, List.zipIdx_append, List.getD_eq_getElem?_getD, hg]

theorem Reported.of_between (h : Reported p es) (hp : p.phase = .between) : es = report p.plan p.results := by
  cases h with
  | between => rfl
  | running hp' | finished hp' => exact nomatch hp.symm.trans hp'

theorem Reported.of_running (h : Reported p es) (hp : p.phase = .running group pool) :
    p.nextGroup? = some group ∧ es = report p.plan p.results ++ [opened p.plan p.results.length group] := by
  cases h with
  | between hp' | finished hp' => exact nomatch hp.symm.trans hp'
  | running hp' hg =>
    obtain ⟨rfl, -⟩ := Phase.running.inj (hp'.symm.trans hp)
    exact ⟨hg, rfl⟩

/-- A step in the pool of the group that runs reports nothing. -/
theorem Reported.step (h : Reported p es) (hp : p.phase = .running group pool) (pool' : Pool ScriptResult)
    (hw : eventsOf ws = []) : Reported { p with phase := .running group pool' } (es ++ eventsOf ws) := by
  obtain ⟨hg, rfl⟩ := h.of_running hp
  rw [hw, List.append_nil]
  exact .running rfl hg

/-- A group is opened, and reported as a whole if it is over at once. -/
theorem Reported.openGroup (h : Reported p es) (hp : p.phase = .between) (hg : p.nextGroup? = some group)
    (started : Nat) :
    Reported (p.openGroup s group started).1 (es ++ eventsOf (p.openGroup s group started).2) := by
  obtain rfl := h.of_between hp
  -- a group that is over at once is reported together with its results
  have skip : ∀ rs, Reported { p with results := p.results ++ [rs] }
      (report p.plan p.results ++ opened p.plan p.results.length group :: rs.map Event.memberFinished) := by
    intro rs
    rw [← report_snoc hg]
    exact .between hp
  unfold Pass.openGroup
  dsimp only
  split
  · exact skip []
  · split
    · have hevents := skip (group.map fun m => ScriptResult.failed m.name
        (.infrastructure (PoolError.message ⟨min s.workers group.length⟩)))
      rwa [← eventsOf_resultEvents] at hevents
    · exact .running rfl hg

theorem Effect.reported (h : Effect s p move calls ws q) (hr : Reported p es) : Reported q (es ++ eventsOf ws) := by
  cases h with
  | conclude hp =>
    obtain rfl := hr.of_between hp
    exact .finished rfl
  | interrupt hp =>
    obtain rfl := hr.of_between hp
    exact .finished rfl
  | openGroup hp hg => exact hr.openGroup hp hg _
  | claim hp | store hp => exact hr.step hp _ rfl
  | settle hp | call hp | lose hp | finish hp => exact hr.step hp _ (eventsOf_entries _)
  | @close group pool hp =>
    obtain ⟨hg, rfl⟩ := hr.of_running hp
    have hlost : ∀ (ws : List (Worker ScriptResult)) (e : Log.Entry),
        eventsOf (ws.map fun _ => Word.entry e) = [] := fun ws e => by simp [eventsOf]
    rw [eventsOf_append, hlost, eventsOf_resultEvents, List.nil_append, List.append_assoc, List.singleton_append,
      ← report_snoc hg]
    exact .between rfl

/-- What a run has reported at any moment. -/
theorem Run.reported (h : Run s plan moves calls words p) : Reported p (eventsOf words) := by
  induction h with
  | start => exact .between rfl
  | move _ hm ih =>
    rw [eventsOf_append]
    exact (effect_of_move? hm).reported ih

/-- What a run has reported when its pass is over. -/
theorem Run.eventsOf_of_finished (h : Run s plan moves calls words p) (hf : p.phase = .finished) :
    ∃ elapsed, eventsOf words = report plan p.results ++ [.runFinished p.summary elapsed] := by
  have hr := h.reported
  rw [← h.plan_eq]
  generalize eventsOf words = es at hr
  cases hr with
  | between hp | running hp => exact nomatch hf.symm.trans hp
  | finished => exact ⟨_, rfl⟩

end Pass

end ScriptRunner
