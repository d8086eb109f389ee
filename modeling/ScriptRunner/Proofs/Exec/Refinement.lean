import ScriptRunner.Proofs.Exec.Events
import ScriptRunner.Proofs.Exec.Progress
import ScriptRunner.Proofs.Exec.Verdict

/-!
# Concurrent and sequential passes

In a `Scene` the table of a member depends on its directory alone, and what a program call comes to on the call alone;
no call is lost, and nobody stops the run.  There a member has one result and at most one call, which do not depend on
any other member (`Scene.result`, `Scene.call?`).  Every pass ends with these results and calls, and with the report
that goes with them, whatever the schedule and the number of workers (`Scene.Run.view_eq`, `Scene.Run.requests_perm`);
so a pool of many workers shows what one worker shows.
-/

namespace ScriptRunner

open Report (Event)

/-! ### What is seen of a pass, up to times -/

/-- A result without the time that the script took. -/
def ScriptResult.timeless (r : ScriptResult) : ScriptResult := { r with took := ⟨0⟩ }

/-- An event without times. -/
def Report.Event.timeless : Event → Event
  | .memberFinished r => .memberFinished r.timeless
  | .runFinished summary _ => .runFinished summary ⟨0⟩
  | e => e

namespace Pass

/-- What is seen of a pass that is over, up to times. -/
structure View where
  groups : List (List ScriptResult)
  summary : Summary
  exitCode : Nat
  events : List Event

def view (p : Pass) (words : List Word) : View :=
  ⟨p.results.map (List.map ScriptResult.timeless), p.summary, p.summary.exitCode,
    (eventsOf words).map Event.timeless⟩

/-- The program calls, in the order in which they begin. -/
def requests (calls : List CallEvent) : List Call :=
  calls.filterMap fun
    | .began _ request => some request
    | .ended _ _ => none

/-- The program calls of a member. -/
def requestsOf (calls : List CallEvent) (m : Member) : List Call :=
  calls.filterMap fun
    | .began m' request => if m' = m then some request else none
    | .ended _ _ => none

/-- The result at a place. -/
def resultAt? (p : Pass) (g i : Nat) : Option ScriptResult := p.results[g]?.bind fun rs => rs[i]?

/-- The program call of an act. -/
def Act.request? : Act → Option Call
  | .called request => some request
  | _ => none

variable {s : RunSettings} {plan : Plan} {m : Member} {ds : List Deed} {moves : List Move} {calls : List CallEvent}
  {words : List Word} {p : Pass}

theorem record_timeless (sum : Summary) (r : ScriptResult) : sum.record r.timeless = sum.record r := rfl

theorem ofResults_timeless (rs : List ScriptResult) :
    Summary.ofResults (rs.map ScriptResult.timeless) = Summary.ofResults rs := by
  simp only [Summary.ofResults, List.foldl_map, record_timeless]

theorem report_timeless (plan : Plan) (results : List (List ScriptResult)) :
    (report plan results).map Event.timeless = report plan (results.map (List.map ScriptResult.timeless)) := by
  simp only [report, List.map_flatMap, List.zipIdx_map, List.flatMap_map, List.map_cons, List.map_map, Prod.map]
  rfl

theorem closing_timeless (s : RunSettings) (m : Member) (reply : Reply) (took : Duration) :
    (closing s m reply took).value.map ScriptResult.timeless = (closing s m reply ⟨0⟩).value := by
  cases reply <;> rfl

theorem timeless_of_settled {table : Except TableError (Option ScriptTable)} {r : ScriptResult}
    (h : (opening s m table).value = .settled r) : r.timeless = r := by
  rcases opening_cases s m table with ⟨_, -, ho⟩ | ⟨-, ho⟩ | ⟨_, -, -, ho⟩ | ⟨_, _, -, -, ho⟩
  · obtain rfl := Opening.settled.inj (ho.symm.trans h)
    rfl
  · obtain rfl := Opening.settled.inj (ho.symm.trans h)
    rfl
  · obtain rfl := Opening.settled.inj (ho.symm.trans h)
    rfl
  · exact nomatch ho.symm.trans h

theorem cwd_of_call {table : Except TableError (Option ScriptTable)} {request : Call}
    (h : (opening s m table).value = .call request) : request.cwd = m.dir := by
  rcases opening_cases s m table with ⟨_, -, ho⟩ | ⟨-, ho⟩ | ⟨_, -, -, ho⟩ | ⟨_, _, -, -, ho⟩
  · exact nomatch ho.symm.trans h
  · exact nomatch ho.symm.trans h
  · exact nomatch ho.symm.trans h
  · obtain rfl := Opening.call.inj (ho.symm.trans h)
    rfl

theorem requests_eq (ds : List Deed) :
    requests (ds.filterMap Deed.call?) = ds.filterMap fun d => d.act?.bind Act.request? := by
  rw [requests, List.filterMap_filterMap]
  refine List.filterMap_congr fun d _ => ?_
  cases d with
  | did g i m act => cases act <;> rfl
  | _ => rfl

theorem requestsOf_eq (ds : List Deed) (m : Member) :
    requestsOf (ds.filterMap Deed.call?) m = (actsOf ds m).filterMap Act.request? := by
  rw [requestsOf, List.filterMap_filterMap, actsOf, List.filterMap_filterMap]
  refine List.filterMap_congr fun d _ => ?_
  cases d with
  | did g i m' act => cases act <;> by_cases h : m' = m <;> simp [Deed.call?, Act.request?, h]
  | _ => rfl

end Pass

open Pass

/-! ### Scenes -/

/-- A world without time, losses and stops. -/
structure Scene where
  table : String → Except TableError (Option ScriptTable)
  /-- What a call leaves behind, or why its program does not start. -/
  answer : Call → Except String Output

namespace Scene

def replyTo (S : Scene) (request : Call) : Reply :=
  match S.answer request with
  | .ok out => .output out
  | .error text => .refused text

/-- The call of a member, if its script is there. -/
def call? (S : Scene) (s : RunSettings) (m : Member) : Option Call :=
  match (opening s m (S.table m.dir)).value with
  | .settled _ => none
  | .call request => some request

/-- The result of a member. -/
def result (S : Scene) (s : RunSettings) (m : Member) : ScriptResult :=
  match (opening s m (S.table m.dir)).value with
  | .settled r => r
  | .call request => (closing s m (S.replyTo request) ⟨0⟩).value.getD (lostResult m)

/-- The act for a member goes with the scene. -/
def Gives (S : Scene) (s : RunSettings) (m : Member) : Pass.Act → Prop
  | .read table => table = S.table m.dir
  | .called _ => True
  | .answered reply _ => ∀ request, S.call? s m = some request → reply = S.replyTo request

/-- The deed goes with the scene, and with a pool in which a worker starts for every group that has members. -/
def Allows (S : Scene) (s : RunSettings) (plan : Plan) : Deed → Prop
  | .interrupted _ => False
  | .opened g started => ∀ group, plan.groups[g]? = some group → group ≠ [] →
      0 < started ∧ started ≤ min s.workers group.length
  | .did _ _ m act => S.Gives s m act

instance (S : Scene) (s : RunSettings) (m : Member) : DecidablePred (S.Gives s m)
  | .read table => inferInstanceAs (Decidable (table = S.table m.dir))
  | .called _ => inferInstanceAs (Decidable True)
  | .answered reply _ => inferInstanceAs (Decidable (∀ request ∈ S.call? s m, reply = S.replyTo request))

instance (S : Scene) (s : RunSettings) (plan : Plan) : DecidablePred (S.Allows s plan)
  | .interrupted _ => inferInstanceAs (Decidable False)
  | .opened g started => inferInstanceAs (Decidable (∀ group ∈ plan.groups[g]?, group ≠ [] →
      0 < started ∧ started ≤ min s.workers group.length))
  | .did _ _ m act => inferInstanceAs (Decidable (S.Gives s m act))

/-- A run in the scene. -/
structure Run (S : Scene) (s : RunSettings) (plan : Plan) (moves : List Move) (calls : List CallEvent)
    (words : List Word) (p : Pass) : Prop where
  run : Pass.Run s plan moves calls words p
  allowed : ∀ d ∈ history s plan moves, S.Allows s plan d

/-- What is seen of every pass in the scene. -/
def view (S : Scene) (s : RunSettings) (plan : Plan) : View :=
  let results := plan.groups.map (List.map (S.result s))
  let summary := Summary.ofResults results.flatten
  ⟨results, summary, summary.exitCode, report plan results ++ [.runFinished summary ⟨0⟩]⟩

/-- The scenes give the same answers outside a directory. -/
def AgreeOutside (dir : String) (S S' : Scene) : Prop :=
  (∀ d, d ≠ dir → S.table d = S'.table d) ∧ ∀ request : Call, request.cwd ≠ dir → S.answer request = S'.answer request

variable {S S' : Scene} {s : RunSettings} {plan : Plan} {m : Member} {acts : List Pass.Act} {group : List Member}
  {all : Nat → List Pass.Act} {ds : List Deed} {moves : List Move} {calls : List CallEvent} {words : List Word} {p : Pass}
  {g i : Nat}

/-! ### One member -/

theorem result_of_settled {r : ScriptResult} (h : (opening s m (S.table m.dir)).value = .settled r) :
    S.result s m = r ∧ S.call? s m = none := by
  simp [result, call?, h]

theorem result_of_call {request : Call} (h : (opening s m (S.table m.dir)).value = .call request) :
    S.result s m = (closing s m (S.replyTo request) ⟨0⟩).value.getD (lostResult m) ∧ S.call? s m = some request := by
  simp [result, call?, h]

theorem closing_replyTo (S : Scene) (s : RunSettings) (m : Member) (request : Call) (took : Duration) :
    ∃ r, (closing s m (S.replyTo request) took).value = some r := by
  unfold replyTo
  split <;> exact ⟨_, rfl⟩

/-- What a worker has done for a member makes the result and the call of the member. -/
theorem result_of_done {o : Option ScriptResult} (h : Done s m acts o) (ha : ∀ act ∈ acts, S.Gives s m act) :
    o.map ScriptResult.timeless = some (S.result s m) ∧ acts.filterMap Pass.Act.request? = (S.call? s m).toList := by
  cases h with
  | @settled table r ho =>
    obtain rfl : table = S.table m.dir := ha (.read table) (by simp)
    obtain ⟨hr, hc⟩ := result_of_settled ho
    rw [hr, hc, Option.map_some, timeless_of_settled ho]
    exact ⟨rfl, rfl⟩
  | @answered table request reply took ho =>
    -- the table fixes the call, and the call fixes the reply
    obtain rfl : table = S.table m.dir := ha (.read table) (by simp)
    obtain ⟨hr, hc⟩ := result_of_call ho
    obtain rfl : reply = S.replyTo request := ha (.answered reply took) (by simp) request hc
    obtain ⟨r, hclose⟩ := closing_replyTo S s m request ⟨0⟩
    rw [hr, hc, closing_timeless, hclose]
    exact ⟨rfl, rfl⟩

theorem result_of_accounts {r : ScriptResult} (h : Accounts s group all i m r) (hm : group[i]? = some m)
    (ha : ∀ (j : Nat) m', group[j]? = some m' → ∀ act ∈ all j, S.Gives s m' act) :
    r.timeless = S.result s m ∧ (all i).filterMap Pass.Act.request? = (S.call? s m).toList := by
  cases h with
  | done h => exact (result_of_done h (ha i m hm)).imp_left Option.some.inj
  | lost h => exact nomatch (result_of_done h (ha i m hm)).1
  | forsaken _ hl =>
    -- no call is lost in a scene
    obtain ⟨j, m', hm', h⟩ := hl
    exact nomatch (result_of_done h (ha j m' hm')).1

theorem member_result (S : Scene) (s : RunSettings) (m : Member) : (S.result s m).member = m.name := by
  cases h : (opening s m (S.table m.dir)).value with
  | settled r => rw [(result_of_settled h).1, (verdict_of_settled h).member]
  | call request => rw [(result_of_call h).1, (verdict_of_answered h _ _).member]

/-- What happens in one directory changes nothing for a member elsewhere. -/
theorem result_congr {dir : String} (h : AgreeOutside dir S S') (hm : m.dir ≠ dir) :
    S.result s m = S'.result s m ∧ S.call? s m = S'.call? s m := by
  have htable := h.1 m.dir hm
  refine ⟨?_, by rw [call?, call?, htable]⟩
  cases ho : (opening s m (S.table m.dir)).value with
  | settled r => rw [(result_of_settled ho).1, (result_of_settled (htable ▸ ho)).1]
  | call request =>
    have hreply : S.replyTo request = S'.replyTo request := by
      rw [replyTo, replyTo, h.2 request (cwd_of_call ho ▸ hm)]
    rw [(result_of_call ho).1, (result_of_call (htable ▸ ho)).1, hreply]

/-! ### A group -/

/-- A group that is over has the results and the calls of its members. -/
theorem results_of_groupDone {started : Nat} {rs : List ScriptResult} (h : GroupDone s group all started rs)
    (hs : group ≠ [] → 0 < started)
    (ha : ∀ (j : Nat) m, group[j]? = some m → ∀ act ∈ all j, S.Gives s m act) :
    rs.map ScriptResult.timeless = group.map (S.result s) ∧
      ∀ (i : Nat) m, group[i]? = some m → (all i).filterMap Pass.Act.request? = (S.call? s m).toList := by
  cases h with
  | unstarted =>
    obtain rfl : group = [] := by
      by_contra hne
      exact Nat.lt_irrefl 0 (hs hne)
    exact ⟨rfl, nofun⟩
  | ran _ hlen h =>
    have hat : ∀ (i : Nat) m, group[i]? = some m → ∃ r, rs[i]? = some r ∧ r.timeless = S.result s m ∧
        (all i).filterMap Pass.Act.request? = (S.call? s m).toList := by
      intro i m hm
      have hr := List.getElem?_eq_getElem (hlen ▸ (List.getElem?_eq_some_iff.1 hm).1 : i < rs.length)
      exact ⟨_, hr, result_of_accounts (h i m _ hm hr) hm ha⟩
    refine ⟨map_eq_map_of_getElem? hlen fun i r m hr hm => ?_, fun i m hm => ?_⟩
    · obtain ⟨r', hr', hresult, -⟩ := hat i m hm
      obtain rfl := Option.some.inj (hr.symm.trans hr')
      exact hresult
    · obtain ⟨r, -, -, hcall⟩ := hat i m hm
      exact hcall

/-! ### A pass -/

theorem Run.not_interrupted (h : S.Run s plan moves calls words p) (g : Nat) : .interrupted g ∉ history s plan moves :=
  h.allowed _

theorem Run.places (h : S.Run s plan moves calls words p) :
    ∀ g i m act, .did g i m act ∈ history s plan moves → plan.At g i m :=
  h.run.plan_eq ▸ h.run.account.places

/-- What was done at a place goes with the scene. -/
theorem Run.gives (h : S.Run s plan moves calls words p) (hm : plan.At g i m) :
    ∀ act ∈ actsAt (history s plan moves) g i, S.Gives s m act := by
  intro act hact
  obtain ⟨m', hd⟩ := mem_actsAt.1 hact
  obtain rfl := hm.member_unique (h.places g i m' act hd)
  exact h.allowed _ hd

theorem Run.length_results (h : S.Run s plan moves calls words p) (hf : p.phase = .finished) :
    p.results.length = plan.groups.length :=
  h.run.plan_eq ▸ h.run.account.complete hf h.not_interrupted

theorem Run.results_of_group (h : S.Run s plan moves calls words p) (hf : p.phase = .finished)
    (hg : plan.groups[g]? = some group) :
    ∃ rs, p.results[g]? = some rs ∧ rs.map ScriptResult.timeless = group.map (S.result s) ∧
      ∀ (i : Nat) m, group[i]? = some m →
        (actsAt (history s plan moves) g i).filterMap Pass.Act.request? = (S.call? s m).toList := by
  have hrs := List.getElem?_eq_getElem (h.length_results hf ▸ (List.getElem?_eq_some_iff.1 hg).1 : g < p.results.length)
  obtain ⟨group', started, hgroup', hopened, hdone⟩ := h.run.account.closed g _ hrs
  rw [h.run.plan_eq] at hgroup'
  obtain rfl := Option.some.inj (hg.symm.trans hgroup')
  exact ⟨_, hrs, results_of_groupDone hdone (fun hne => (h.allowed _ hopened group hg hne).1) fun j m hm =>
    h.gives ⟨group, hg, hm⟩⟩

theorem Run.results_eq (h : S.Run s plan moves calls words p) (hf : p.phase = .finished) :
    p.results.map (List.map ScriptResult.timeless) = plan.groups.map (List.map (S.result s)) := by
  refine map_eq_map_of_getElem? (h.length_results hf) fun g rs group hrs hg => ?_
  obtain ⟨rs', hrs', hresults, -⟩ := h.results_of_group hf hg
  obtain rfl := Option.some.inj (hrs.symm.trans hrs')
  exact hresults

/-- What is seen of a pass in the scene, whatever the schedule. -/
theorem Run.view_eq (h : S.Run s plan moves calls words p) (hf : p.phase = .finished) :
    Pass.view p words = S.view s plan := by
  have hresults := h.results_eq hf
  have hsummary : p.summary = Summary.ofResults (plan.groups.map (List.map (S.result s))).flatten := by
    rw [← hresults, ← List.map_flatten, ofResults_timeless]
    rfl
  obtain ⟨elapsed, hevents⟩ := h.run.eventsOf_of_finished hf
  simp only [Pass.view, view, hresults, hsummary, hevents, List.map_append, report_timeless]
  rfl

theorem Run.requests_at (h : S.Run s plan moves calls words p) (hf : p.phase = .finished) (hm : plan.At g i m) :
    (actsAt (history s plan moves) g i).filterMap Pass.Act.request? = (S.call? s m).toList := by
  obtain ⟨group, hg, hm⟩ := hm
  obtain ⟨rs, -, -, hcall⟩ := h.results_of_group hf hg
  exact hcall i m hm

/-- The calls of a pass in the scene are those of its members, in any order. -/
theorem Run.requests_perm (h : S.Run s plan moves calls words p) (hf : p.phase = .finished) :
    (requests calls).Perm (plan.order.filterMap (S.call? s)) := by
  rw [h.run.calls_eq, requests_eq]
  refine (perm_actsAt Pass.Act.request? h.places).trans (.of_eq ?_)
  rw [List.flatMap_congr fun x hx => h.requests_at hf (Plan.mem_places.1 hx), ← Plan.map_snd_places,
    List.filterMap_map, List.filterMap_eq_flatMap_toList]
  rfl

/-- When no member is in two places, the calls of a member are its own. -/
theorem Run.requestsOf_eq (h : S.Run s plan moves calls words p) (hf : p.phase = .finished) (hn : plan.order.Nodup)
    (hm : m ∈ plan.order) : requestsOf calls m = (S.call? s m).toList := by
  obtain ⟨g, i, hat⟩ := Plan.exists_at hm
  rw [h.run.calls_eq, Pass.requestsOf_eq, actsOf_eq hn h.places hat, h.requests_at hf hat]

/-! ### The end of a pass -/

/-- A pass in a scene is over after so many moves: the scene bounds the workers that are opened for a group. -/
theorem length_add_rank_le (h : Pass.Run s plan moves calls words p)
    (ha : ∀ d ∈ history s plan moves, S.Allows s plan d) : moves.length + p.rank ≤ plan.span :=
  h.length_add_rank_le fun _ _ group hd hg hne => (ha _ hd group hg hne).2.trans (Nat.min_le_right _ _)

/-- A pass in a scene that is not over can go on in the scene. -/
theorem Run.exists_move (h : S.Run s plan moves calls words p) (hs : 0 < s.workers) (hf : p.phase ≠ .finished) :
    ∃ move calls' words' q, S.Run s plan (moves ++ [move]) calls' words' q := by
  have hmove : ∃ move q ws, p.move? s move = some (q, ws) ∧ ∀ d ∈ deedsOf s p move, S.Allows s plan d := by
    refine h.run.account.exists_move hf (fun group hg => ⟨min s.workers group.length, fun group' hg' hne => ?_⟩)
      (fun _ _ m => ⟨S.table m.dir, rfl⟩) (fun _ _ _ _ => trivial) fun _ _ m => ?_
    · rw [← h.run.plan_eq] at hg'
      obtain rfl := Option.some.inj (hg.symm.trans hg')
      exact ⟨lt_min hs (List.length_pos_iff.2 hne), le_rfl⟩
    · -- a member without a call is never answered, so any reply will do for it
      cases hc : S.call? s m with
      | none => exact ⟨.lost, ⟨0⟩, fun request h => nomatch hc.symm.trans h⟩
      | some request =>
        refine ⟨S.replyTo request, ⟨0⟩, fun request' h => ?_⟩
        obtain rfl := Option.some.inj (hc.symm.trans h)
        rfl
  obtain ⟨move, q, ws, hm, hd⟩ := hmove
  refine ⟨move, _, _, q, h.run.move hm, ?_⟩
  rw [h.run.history_snoc]
  intro d hmem
  exact (List.mem_append.1 hmem).elim (h.allowed d) (hd d)

theorem Run.resultAt?_eq (h : S.Run s plan moves calls words p) (hf : p.phase = .finished) (hm : plan.At g i m) :
    (p.resultAt? g i).map ScriptResult.timeless = some (S.result s m) := by
  obtain ⟨group, hg, hm⟩ := hm
  obtain ⟨rs, hrs, hresults, -⟩ := h.results_of_group hf hg
  have hi := congrArg (fun rs => rs[i]?) hresults
  rw [List.getElem?_map, List.getElem?_map, hm] at hi
  rw [resultAt?, hrs]
  exact hi

/-- Every pass in a scene comes to its end, and then shows the result and has made the call of each of its members,
whatever the schedule and the number of workers; so it shows what one worker shows.  What happens in the directory of
one member changes nothing for the others. -/
theorem refines_sequential (S : Scene) {s : RunSettings} (plan : Plan) (hs : 0 < s.workers) :
    (∀ moves calls words p, S.Run s plan moves calls words p →
      moves.length ≤ plan.span ∧
      (p.phase ≠ .finished → ∃ move calls' words' q, S.Run s plan (moves ++ [move]) calls' words' q) ∧
      (p.phase = .finished →
        Pass.view p words = S.view s plan ∧ (requests calls).Perm (plan.order.filterMap (S.call? s)) ∧
        ∀ moves' calls' words' q, S.Run { s with workers := 1 } plan moves' calls' words' q → q.phase = .finished →
          Pass.view p words = Pass.view q words' ∧ (requests calls).Perm (requests calls'))) ∧
    (∀ m, (S.result s m).member = m.name) ∧
    ((plan.order.map (·.dir)).Nodup → ∀ m₀ ∈ plan.order, ∀ S', AgreeOutside m₀.dir S S' →
      ∀ moves calls words p moves' calls' words' q, S.Run s plan moves calls words p → p.phase = .finished →
        S'.Run s plan moves' calls' words' q → q.phase = .finished →
        ∀ g i m, plan.At g i m → m ≠ m₀ →
          (p.resultAt? g i).map ScriptResult.timeless = (q.resultAt? g i).map ScriptResult.timeless ∧
            requestsOf calls m = requestsOf calls' m) := by
  refine ⟨fun moves calls words p h => ⟨?_, h.exists_move hs, fun hf => ?_⟩, member_result S s, ?_⟩
  · exact Nat.le_of_add_right_le (length_add_rank_le h.run h.allowed)
  · refine ⟨h.view_eq hf, h.requests_perm hf, fun moves' calls' words' q h' hf' => ⟨?_, ?_⟩⟩
    · exact (h.view_eq hf).trans (h'.view_eq hf').symm
    · exact (h.requests_perm hf).trans (h'.requests_perm hf').symm
  · intro hdirs m₀ hm₀ S' hagree moves calls words p moves' calls' words' q h hf h' hf' g i m hat hne
    have hdir : m.dir ≠ m₀.dir := fun heq => hne (List.inj_on_of_nodup_map hdirs hat.mem_order hm₀ heq)
    obtain ⟨hresult, hcall⟩ := result_congr (s := s) hagree hdir
    constructor
    · rw [h.resultAt?_eq hf hat, h'.resultAt?_eq hf' hat, hresult]
    · rw [h.requestsOf_eq hf hdirs.of_map hat.mem_order, h'.requestsOf_eq hf' hdirs.of_map hat.mem_order, hcall]

/-- Two workers finish in the opposite order, and the calls of the one worker begin in the order of the members. -/
theorem refines_sequential_out_of_order :
    let core : Member := ⟨"core", "core", "/ws/core", none, none⟩
    let web : Member := ⟨"web", "web", "/ws/web", none, none⟩
    let plan : Plan := ⟨[[core, web]]⟩
    let S : Scene := ⟨fun _ => .ok (some (.ofList [("lint", "eslint .")])),
      fun request => if request.cwd = "/ws/core" then .ok ⟨some 2, "", "", false⟩ else .error "denied"⟩
    ∃ moves calls words p moves' calls' words' q, S.Run ⟨⟨"lint", []⟩, none, 2⟩ plan moves calls words p ∧
      S.Run ⟨⟨"lint", []⟩, none, 1⟩ plan moves' calls' words' q ∧ p.phase = .finished ∧ q.phase = .finished ∧
      (requests calls).map (·.cwd) = ["/ws/web", "/ws/core"] ∧
      (requests calls').map (·.cwd) = ["/ws/core", "/ws/web"] ∧
      Pass.view p words = Pass.view q words' ∧ (requests calls).Perm (requests calls') := by
  intro core web plan S
  have hplay : ∃ e, play? ⟨⟨"lint", []⟩, none, 2⟩
      [.boundary false 2 ⟨0⟩, .claim 1, .claim 0, .start 0 (.ok (some (.ofList [("lint", "eslint .")]))),
        .start 1 (.ok (some (.ofList [("lint", "eslint .")]))), .finish 0 (.refused "denied") ⟨5⟩, .store 0, .claim 0,
        .finish 1 (.output ⟨some 2, "", "", false⟩) ⟨7⟩, .store 1, .claim 1, .close, .boundary false 0 ⟨9⟩]
      { plan := ⟨[[⟨"core", "core", "/ws/core", none, none⟩, ⟨"web", "web", "/ws/web", none, none⟩]]⟩ } = some e ∧
      e.1.phase = .finished ∧ (requests e.2.1).map (·.cwd) = ["/ws/web", "/ws/core"] := ⟨_, rfl, rfl, rfl⟩
  have hplay' : ∃ e, play? ⟨⟨"lint", []⟩, none, 1⟩
      [.boundary false 1 ⟨0⟩, .claim 0, .start 0 (.ok (some (.ofList [("lint", "eslint .")]))),
        .finish 0 (.output ⟨some 2, "", "", false⟩) ⟨7⟩, .store 0, .claim 0,
        .start 0 (.ok (some (.ofList [("lint", "eslint .")]))), .finish 0 (.refused "denied") ⟨5⟩, .store 0, .claim 0,
        .close, .boundary false 0 ⟨9⟩]
      { plan := ⟨[[⟨"core", "core", "/ws/core", none, none⟩, ⟨"web", "web", "/ws/web", none, none⟩]]⟩ } = some e ∧
      e.1.phase = .finished ∧ (requests e.2.1).map (·.cwd) = ["/ws/core", "/ws/web"] := ⟨_, rfl, rfl, rfl⟩
  obtain ⟨⟨p, calls, words⟩, hp, hf, hc⟩ := hplay
  obtain ⟨⟨q, calls', words'⟩, hq, hf', hc'⟩ := hplay'
  have hrun : S.Run ⟨⟨"lint", []⟩, none, 2⟩ plan _ calls words p := ⟨run_iff_play?.2 hp, by decide +kernel⟩
  have hrun' : S.Run ⟨⟨"lint", []⟩, none, 1⟩ plan _ calls' words' q := ⟨run_iff_play?.2 hq, by decide +kernel⟩
  have hsame := (((refines_sequential S plan Nat.zero_lt_two).1 _ _ _ p hrun).2.2 hf).2.2 _ _ _ q hrun' hf'
  exact ⟨_, calls, words, p, _, calls', words', q, hrun, hrun', hf, hf', hc, hc', hsame⟩

end Scene

end ScriptRunner
