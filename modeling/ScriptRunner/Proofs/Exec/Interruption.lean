import ScriptRunner.Proofs.Exec.Driving
import ScriptRunner.Proofs.Exec.Events
import ScriptRunner.Proofs.Exec.Progress
import ScriptRunner.Proofs.Exec.Verdict

/-!
# Interrupted passes

Let the run be stopping from move `n` on (`StopsAt`).  Only a boundary looks at the stop, so the moves after `n` open no
group (`Effect.groupsBegun_eq`): the groups that a pass has begun are those that it had begun before move `n`
(`Run.exists_take`), while the group that was running then comes to its end like any other.  What was done, called and
reported belongs to the groups begun, which are the first ones of the plan (`Run.interruption`).
-/

namespace ScriptRunner

namespace Pass

open Report (Event)

/-- The run is stopping from move `n` on, and not before. -/
def StopsAt (n : Nat) (moves : List Move) : Prop :=
  ∀ (i : Nat) stopping started elapsed, moves[i]? = some (.boundary stopping started elapsed) →
    (stopping = true ↔ n ≤ i)

/-- The places in the plan of the groups that were reported as started. -/
def groupsIn (es : List Event) : List Nat :=
  es.filterMap fun
    | .groupStarted g _ _ => some g
    | _ => none

/-- The results that were reported. -/
def resultsIn (es : List Event) : List ScriptResult :=
  es.filterMap fun
    | .memberFinished r => some r
    | _ => none

/-- How many groups a pass has begun. -/
def groupsBegun (p : Pass) : Nat :=
  match p.phase with
  | .running _ _ => p.results.length + 1
  | _ => p.results.length

variable {s : RunSettings} {plan : Plan} {p q : Pass} {move : Move} {moves : List Move} {calls : List CallEvent}
  {words ws : List Word} {ds : List Deed} {es : List Event} {n : Nat}

/-! ### The report -/

theorem groupsIn_append (es fs : List Event) : groupsIn (es ++ fs) = groupsIn es ++ groupsIn fs :=
  List.filterMap_append

theorem resultsIn_append (es fs : List Event) : resultsIn (es ++ fs) = resultsIn es ++ resultsIn fs :=
  List.filterMap_append

theorem groupsIn_report (plan : Plan) (results : List (List ScriptResult)) :
    groupsIn (report plan results) = List.range results.length := by
  have hgroup : ∀ e : List ScriptResult × Nat,
      groupsIn (opened plan e.2 (plan.groups.getD e.2 []) :: e.1.map Event.memberFinished) = [e.2] := by
    intro e
    simp [groupsIn, opened, List.filterMap_map]
  calc groupsIn (report plan results)
    _ = results.zipIdx.flatMap fun e => [e.2] := by
      unfold report groupsIn
      rw [List.filterMap_flatMap]
      exact List.flatMap_congr fun e _ => hgroup e
    _ = List.range results.length := by
      rw [← List.map_eq_flatMap, List.range_eq_range']
      exact List.zipIdx_map_snd 0 results

theorem resultsIn_report (plan : Plan) (results : List (List ScriptResult)) :
    resultsIn (report plan results) = results.flatten := by
  have hgroup : ∀ e : List ScriptResult × Nat,
      resultsIn (opened plan e.2 (plan.groups.getD e.2 []) :: e.1.map Event.memberFinished) = e.1 := by
    intro e
    simp [resultsIn, opened, List.filterMap_map]
  calc resultsIn (report plan results)
    _ = results.zipIdx.flatMap Prod.fst := by
      unfold report resultsIn
      rw [List.filterMap_flatMap]
      exact List.flatMap_congr fun e _ => hgroup e
    _ = results.flatten := by rw [List.flatMap_def, List.zipIdx_map_fst]

/-- The groups reported as started are those that the pass has begun. -/
theorem Reported.groupsIn_eq (h : Reported p es) : groupsIn es = List.range p.groupsBegun := by
  unfold groupsBegun
  cases h with
  | between hp =>
    rw [hp]
    exact groupsIn_report _ _
  | running hp =>
    rw [hp, groupsIn_append, groupsIn_report, List.range_succ]
    rfl
  | finished hp =>
    rw [hp, groupsIn_append, groupsIn_report]
    exact List.append_nil _

/-! ### After the stop -/

theorem StopsAt.snoc (h : StopsAt n moves)
    (hm : ∀ stopping started elapsed, move = .boundary stopping started elapsed →
      (stopping = true ↔ n ≤ moves.length)) : StopsAt n (moves ++ [move]) := by
  intro i stopping started elapsed hi
  rw [List.getElem?_append] at hi
  split at hi
  · exact h i stopping started elapsed hi
  · rw [List.getElem?_singleton] at hi
    split at hi
    · obtain rfl : i = moves.length := by omega
      exact hm stopping started elapsed (Option.some.inj hi)
    · cases hi

theorem StopsAt.of_snoc (h : StopsAt n (moves ++ [move])) : StopsAt n moves := by
  intro i stopping started elapsed hi
  have hlt : i < moves.length := (List.getElem?_eq_some_iff.1 hi).1
  exact h i stopping started elapsed ((List.getElem?_append_left hlt).trans hi)

theorem groupsBegun_openGroup (hp : p.phase = .between) (group : List Member) (started : Nat) :
    p.groupsBegun < (p.openGroup s group started).1.groupsBegun := by
  have hlt : p.groupsBegun < p.results.length + 1 := by
    unfold groupsBegun
    rw [hp]
    exact Nat.lt_succ_self _
  have hskip : ∀ rs, groupsBegun { p with results := p.results ++ [rs] } = p.results.length + 1 := by
    intro rs
    unfold groupsBegun
    simp [hp]
  unfold Pass.openGroup
  dsimp only
  split
  · rwa [hskip]
  · split
    · rwa [hskip]
    · exact hlt

/-- No move begins a group but a boundary at which the run is not stopping. -/
theorem Effect.groupsBegun_eq (h : Effect s p move calls ws q)
    (hm : ∀ started elapsed, move ≠ .boundary false started elapsed) : q.groupsBegun = p.groupsBegun := by
  unfold groupsBegun
  cases h with
  | conclude hp | interrupt hp => rw [hp]
  | openGroup => exact absurd rfl (hm _ _)
  | claim hp | settle hp | call hp | lose hp | finish hp | store hp => rw [hp]
  | close hp =>
    rw [hp]
    exact List.length_append

/-- No group that has begun is forgotten. -/
theorem Effect.groupsBegun_le (h : Effect s p move calls ws q) : p.groupsBegun ≤ q.groupsBegun := by
  by_cases hm : ∃ started elapsed, move = .boundary false started elapsed
  · obtain ⟨started, elapsed, rfl⟩ := hm
    cases h with
    | conclude hp =>
      unfold groupsBegun
      rw [hp]
    | openGroup hp => exact Nat.le_of_lt (groupsBegun_openGroup hp _ _)
  · exact Nat.le_of_eq (h.groupsBegun_eq fun started elapsed heq => hm ⟨started, elapsed, heq⟩).symm

/-- A pass begins no group after the stop. -/
theorem Run.exists_take (h : Run s plan moves calls words p) (hn : StopsAt n moves) :
    ∃ calls₀ words₀ p₀, Run s plan (moves.take n) calls₀ words₀ p₀ ∧ p₀.groupsBegun = p.groupsBegun := by
  induction h with
  | start => exact ⟨[], [], _, by simpa using Run.start, rfl⟩
  | @move moves calls words ws p q move h hm ih =>
    rcases Nat.lt_or_ge moves.length n with hlt | hge
    · -- the stop comes later
      rw [List.take_of_length_le (by rw [List.length_append, List.length_singleton]; omega)]
      exact ⟨_, _, q, h.move hm, rfl⟩
    · obtain ⟨calls₀, words₀, p₀, h₀, heq⟩ := ih hn.of_snoc
      rw [List.take_append_of_le_length hge]
      refine ⟨calls₀, words₀, p₀, h₀, heq.trans ((effect_of_move? hm).groupsBegun_eq ?_).symm⟩
      rintro started elapsed rfl
      have hstop : false = true := (hn moves.length false started elapsed (by simp)).2 hge
      cases hstop

theorem groupsBegun_of_finished (hf : p.phase = .finished) : p.groupsBegun = p.results.length := by
  unfold groupsBegun
  rw [hf]

/-- What was done in a pass that is over was done for the groups that have results. -/
theorem Account.lt_of_did (h : Account s p ds) (hf : p.phase = .finished) {g i : Nat} {m : Member} {act : Act}
    (hd : .did g i m act ∈ ds) : g < p.results.length := by
  have hmem : act ∈ actsAt ds g i := mem_actsAt.2 ⟨m, hd⟩
  by_contra hge
  rcases Nat.lt_or_eq_of_le (Nat.le_of_not_lt hge) with hlt | rfl
  · rw [h.later g hlt i] at hmem
    cases hmem
  · cases h.ongoing with
    | idle _ hacts =>
      rw [hacts i] at hmem
      cases hmem
    | running hp => exact nomatch hf.symm.trans hp

theorem exists_did_of_began {m : Member} {request : Call} (h : .began m request ∈ ds.filterMap Deed.call?) :
    ∃ g i, .did g i m (.called request) ∈ ds := by
  obtain ⟨d, hd, hcall⟩ := List.mem_filterMap.1 h
  unfold Deed.call? at hcall
  split at hcall
  · rename_i g i m' request'
    obtain ⟨rfl, rfl⟩ := CallEvent.began.inj (Option.some.inj hcall)
    exact ⟨g, i, hd⟩
  · cases Option.some.inj hcall
  · cases hcall

/-- The groups that have results are the first ones of the plan, with one result for each member. -/
theorem Account.map_member_take (h : Account s p ds) :
    p.results.map (List.map (·.member)) = (p.plan.groups.take p.results.length).map (List.map (·.name)) := by
  have hlen : p.results.length = (p.plan.groups.take p.results.length).length := by
    rw [List.length_take, Nat.min_eq_left h.length_le]
  refine map_eq_map_of_getElem? hlen fun g rs group hrs hgroup => ?_
  obtain ⟨group', started, hgroup', -, hdone⟩ := h.closed g rs hrs
  rw [List.getElem?_take_of_lt (List.getElem?_eq_some_iff.1 hrs).1] at hgroup
  obtain rfl := Option.some.inj (hgroup.symm.trans hgroup')
  exact hdone.map_member

/-- Groups are left out only after the stop. -/
theorem Run.lt_length_of_left_out (h : Run s plan moves calls words p) (hf : p.phase = .finished) (hn : StopsAt n moves)
    (hlt : p.results.length < plan.groups.length) : n < moves.length := by
  have hnext : p.nextGroup? ≠ none := by
    unfold nextGroup?
    rw [h.plan_eq, List.getElem?_eq_getElem hlt]
    exact Option.some_ne_none _
  have hint := (h.account.ended hf).resolve_left hnext
  obtain ⟨started, elapsed, hmem⟩ := h.stopping_of_interrupted hint
  obtain ⟨i, hi⟩ := List.mem_iff_getElem?.1 hmem
  have hle : n ≤ i := (hn i true started elapsed hi).1 rfl
  exact Nat.lt_of_le_of_lt hle (List.getElem?_eq_some_iff.1 hi).1

/-- A pass that is not over can go on, whenever the stop comes. -/
theorem Run.exists_move (h : Run s plan moves calls words p) (hn : StopsAt n moves) (hf : p.phase ≠ .finished) :
    ∃ move q ws, p.move? s move = some (q, ws) ∧ StopsAt n (moves ++ [move]) := by
  cases hp : p.phase with
  | finished => exact absurd hp hf
  | between =>
    -- the next look at the stop
    have hstop : StopsAt n (moves ++ [.boundary (decide (n ≤ moves.length)) 0 ⟨0⟩]) := by
      refine hn.snoc ?_
      rintro _ _ _ ⟨⟩
      exact decide_eq_true_iff
    obtain ⟨e, he⟩ : ∃ e, p.move? s (.boundary (decide (n ≤ moves.length)) 0 ⟨0⟩) = some e := by
      unfold move?
      rw [hp]
      cases p.nextGroup? with
      | none => exact ⟨_, rfl⟩
      | some group => by_cases hle : n ≤ moves.length <;> simp [hle]
    exact ⟨_, e.1, e.2, he, hstop⟩
  | running group pool =>
    obtain ⟨move, q, ws, hm, -⟩ := h.account.exists_move (P := fun _ => True) hf (fun _ _ => ⟨0, trivial⟩)
      (fun _ _ _ => ⟨.ok none, trivial⟩) (fun _ _ _ _ => trivial) fun _ _ _ => ⟨.lost, ⟨0⟩, trivial⟩
    refine ⟨move, q, ws, hm, hn.snoc ?_⟩
    rintro stopping started elapsed rfl
    simp [move?, hp] at hm

/-- A pass under a host that never takes back a stop is a run with a moment of the stop. -/
theorem exists_stopsAt_of_latched {σ τ : Type} {host : Host σ τ} (hl : host.Latched) (s : RunSettings) (fuel : Nat)
    (plan : Plan) (world : σ) :
    ∃ n moves calls words, Run s plan moves calls words (run host s fuel plan world).pass ∧ StopsAt n moves := by
  have hk : Keeps host s fun p x => ∃ n moves calls words, (Run s plan moves calls words p ∧ StopsAt n moves) ∧
      (moves.length < n ∨ host.stopping x = true) := by
    refine ⟨?_, fun m => ?_, fun request => ?_, fun call => ?_, ?_⟩
    · rintro p q x move ws hm hflag ⟨n, moves, calls, words, ⟨hrun, hn⟩, hlater⟩
      cases hx : host.stopping x with
      | true =>
        -- the pass may see the stop from here on
        refine ⟨min n moves.length, _, _, _, ⟨hrun.move hm, StopsAt.snoc ?_ ?_⟩, .inr (hl.tell ws x hx)⟩
        · intro i stopping started elapsed hi
          have hlt := (List.getElem?_eq_some_iff.1 hi).1
          rw [hn i stopping started elapsed hi]
          omega
        · intro stopping started elapsed hmove
          have hstop := (hflag stopping started elapsed hmove).trans hx
          exact iff_of_true hstop (Nat.min_le_right _ _)
      | false =>
        have hlt : moves.length < n := hlater.resolve_right (by simp [hx])
        refine ⟨n + 1, _, _, _, ⟨hrun.move hm, StopsAt.snoc ?_ ?_⟩, .inl ?_⟩
        · intro i stopping started elapsed hi
          have hi' := (List.getElem?_eq_some_iff.1 hi).1
          rw [hn i stopping started elapsed hi]
          omega
        · intro stopping started elapsed hmove
          have hstop := (hflag stopping started elapsed hmove).trans hx
          exact iff_of_false (by simp [hstop]) (by omega)
        · rw [List.length_append, List.length_singleton]
          omega
    · exact fun ⟨n, moves, calls, words, hrun, h⟩ => ⟨n, moves, calls, words, hrun, h.imp_right (hl.table m _)⟩
    · exact fun ⟨n, moves, calls, words, hrun, h⟩ => ⟨n, moves, calls, words, hrun, h.imp_right (hl.begin request _)⟩
    · exact fun ⟨n, moves, calls, words, hrun, h⟩ => ⟨n, moves, calls, words, hrun, h.imp_right (hl.reply call _)⟩
    · exact fun ⟨n, moves, calls, words, hrun, h⟩ => ⟨n, moves, calls, words, hrun, h.imp_right (hl.wait _)⟩
  obtain ⟨n, moves, calls, words, h, -⟩ :=
    hk.drive (d := ⟨{ plan := plan }, world, [], host.now world⟩)
      ⟨1, [], [], [], ⟨.start, nofun⟩, .inl Nat.zero_lt_one⟩ fuel
  exact ⟨n, moves, calls, words, h⟩

/-- A pass that begins while the world is not stopping begins the first group of its plan. -/
theorem results_ne_nil_of_not_stopping {σ τ : Type} {host : Host σ τ} {fuel : Nat} {world : σ}
    (hx : host.stopping world = false) (hg : plan.groups ≠ [])
    (hf : (run host s fuel plan world).pass.phase = .finished) : (run host s fuel plan world).pass.results ≠ [] := by
  have hk : Keeps host s fun p _ => 0 < p.groupsBegun :=
    ⟨fun hm _ hpos => Nat.lt_of_lt_of_le hpos (effect_of_move? hm).groupsBegun_le, fun _ h => h, fun _ h => h,
      fun _ h => h, fun h => h⟩
  cases fuel with
  | zero => cases hf
  | succ fuel =>
    obtain ⟨group, groups, hgroups⟩ := List.exists_cons_of_ne_nil hg
    -- the first round opens the group
    have hround : Drive.Has (fun p _ => 0 < p.groupsBegun)
        (Drive.round host s ⟨{ plan := plan }, world, [], host.now world⟩) := by
      have hnext : nextGroup? { plan := plan } = some group := by simp [nextGroup?, hgroups]
      simp only [Drive.round, Drive.make, move?, hnext, hx, Bool.false_eq_true, if_false]
      exact Nat.lt_of_le_of_lt (Nat.zero_le _) (groupsBegun_openGroup rfl group _)
    have hend : 0 < (run host s (fuel + 1) plan world).pass.groupsBegun := hk.drive hround fuel
    rw [groupsBegun_of_finished hf] at hend
    exact List.ne_nil_of_length_pos hend

/-- An interruption is clean, whatever the plan, the schedule and the moment of the stop.  A pass that is over has
reported, for each of some first groups of the plan, its start and then the results of its members in their order, and
at the end a summary, which counts those results.  All of these groups had begun before the stop; nothing was done and
nothing was called for the others, which are left out only because of the stop.  A pass that is not over can go on, and
comes to its end; a pass that is driven is one of these. -/
theorem Run.interruption (s : RunSettings) (plan : Plan) :
    (∀ n moves calls words p, Run s plan moves calls words p → StopsAt n moves → p.phase = .finished →
      (∃ elapsed, eventsOf words = report plan p.results ++ [.runFinished p.summary elapsed]) ∧
      p.summary = Summary.ofResults (resultsIn (eventsOf words)) ∧
      ∃ k ≤ plan.groups.length,
        p.results.map (List.map (·.member)) = (plan.groups.take k).map (List.map (·.name)) ∧
        p.summary.total = ((plan.groups.take k).map List.length).sum ∧
        groupsIn (eventsOf words) = List.range k ∧
        (∃ calls₀ words₀ p₀, Run s plan (moves.take n) calls₀ words₀ p₀ ∧
          groupsIn (eventsOf words₀) = List.range k) ∧
        (∀ g i m act, .did g i m act ∈ history s plan moves → g < k ∧ plan.At g i m) ∧
        (∀ m request, .began m request ∈ calls → ∃ group ∈ plan.groups.take k, m ∈ group) ∧
        (k < plan.groups.length → n < moves.length)) ∧
    (∀ n moves calls words p, Run s plan moves calls words p → StopsAt n moves →
      (p.phase ≠ .finished → ∃ move q ws, p.move? s move = some (q, ws) ∧ StopsAt n (moves ++ [move])) ∧
      ((∀ g started group, .opened g started ∈ history s plan moves → plan.groups[g]? = some group → group ≠ [] →
        started ≤ group.length) → moves.length ≤ plan.span)) ∧
    ∀ (σ τ : Type) (host : Host σ τ), host.Latched → ∀ fuel world,
      ∃ n moves calls words, Run s plan moves calls words (run host s fuel plan world).pass ∧ StopsAt n moves := by
  refine ⟨fun n moves calls words p h hn hf => ?_, fun n moves calls words p h hn => ⟨h.exists_move hn, fun hc => ?_⟩,
    fun σ τ host hl fuel world => exists_stopsAt_of_latched hl s fuel plan world⟩
  · have haccount := h.account
    obtain ⟨elapsed, hevents⟩ := h.eventsOf_of_finished hf
    have hmembers := haccount.map_member_take
    have hle := haccount.length_le
    have hplaces : ∀ g i m act, .did g i m act ∈ history s plan moves → g < p.results.length ∧ plan.At g i m :=
      fun g i m act hd => ⟨haccount.lt_of_did hf hd, h.plan_eq ▸ haccount.places g i m act hd⟩
    rw [h.plan_eq] at hmembers hle
    refine ⟨⟨elapsed, hevents⟩, ?_, p.results.length, hle, hmembers, ?_, ?_, ?_, hplaces, ?_,
      h.lt_length_of_left_out hf hn⟩
    · rw [hevents, resultsIn_append, resultsIn_report]
      simp [resultsIn, summary]
    · have hlengths : p.results.map List.length = (plan.groups.take p.results.length).map List.length := by
        have h' := congrArg (List.map List.length) hmembers
        simpa only [List.map_map, Function.comp_def, List.length_map] using h'
      rw [summary, Summary.ofResults_total, List.length_flatten, hlengths]
    · rw [h.reported.groupsIn_eq, groupsBegun_of_finished hf]
    · obtain ⟨calls₀, words₀, p₀, h₀, heq⟩ := h.exists_take hn
      exact ⟨calls₀, words₀, p₀, h₀, by rw [h₀.reported.groupsIn_eq, heq, groupsBegun_of_finished hf]⟩
    · intro m request hcall
      rw [h.calls_eq] at hcall
      obtain ⟨g, i, hd⟩ := exists_did_of_began hcall
      obtain ⟨hlt, group, hgroup, hm⟩ := hplaces g i m _ hd
      rw [← List.getElem?_take_of_lt hlt] at hgroup
      exact ⟨group, List.mem_of_getElem? hgroup, List.mem_of_getElem? hm⟩
  · exact Nat.le_of_add_right_le (h.length_add_rank_le hc)

/-- Of three groups with a member each, the stop comes during the first. -/
theorem Run.interruption_first_of_three :
    let core : Member := ⟨"core", "core", "/ws/core", none, none⟩
    let lib : Member := ⟨"lib", "lib", "/ws/lib", none, none⟩
    let app : Member := ⟨"app", "app", "/ws/app", none, none⟩
    let plan : Plan := ⟨[[core], [lib], [app]]⟩
    let s : RunSettings := ⟨⟨"build", []⟩, none, 2⟩
    ∃ moves calls words p, Run s plan moves calls words p ∧ StopsAt 3 moves ∧ p.phase = .finished ∧
      p.results.map (List.map (·.member)) = [["core"]] ∧ p.summary.total = 1 ∧ groupsIn (eventsOf words) = [0] ∧
      ∀ request, .began app request ∉ calls := by
  intro core lib app plan s
  have hplay : ∃ e, play? ⟨⟨"build", []⟩, none, 2⟩
      [.boundary false 1 ⟨0⟩, .claim 0, .start 0 (.ok (some (.ofList [("build", "tsc")]))),
        .finish 0 (.output ⟨some 0, "", "", false⟩) ⟨7⟩, .store 0, .claim 0, .close, .boundary true 0 ⟨9⟩]
      { plan := ⟨[[⟨"core", "core", "/ws/core", none, none⟩], [⟨"lib", "lib", "/ws/lib", none, none⟩],
        [⟨"app", "app", "/ws/app", none, none⟩]]⟩ } = some e ∧ e.1.phase = .finished ∧ e.1.results.length = 1 :=
    ⟨_, rfl, rfl, rfl⟩
  obtain ⟨⟨p, calls, words⟩, hplay, hf, (hlen : p.results.length = 1)⟩ := hplay
  have hrun : Run s plan _ calls words p := run_iff_play?.2 hplay
  have hstop : StopsAt 3 [.boundary false 1 ⟨0⟩, .claim 0, .start 0 (.ok (some (.ofList [("build", "tsc")]))),
      .finish 0 (.output ⟨some 0, "", "", false⟩) ⟨7⟩, .store 0, .claim 0, .close, .boundary true 0 ⟨9⟩] := by
    intro i stopping started elapsed hi
    rcases i with _ | _ | _ | _ | _ | _ | _ | _ | i <;> cases hi <;> decide
  obtain ⟨-, -, k, -, hmembers, htotal, hgroups, -, -, hcalls, -⟩ :=
    (Run.interruption s plan).1 3 _ calls words p hrun hstop hf
  obtain rfl : k = 1 := by
    have hlength : p.results.length = min k 3 := by simpa [plan] using congrArg List.length hmembers
    omega
  refine ⟨_, calls, words, p, hrun, hstop, hf, hmembers, htotal, hgroups, fun request hcall => ?_⟩
  obtain ⟨group, hgroup, hm⟩ := hcalls app request hcall
  obtain rfl : group = [core] := List.mem_singleton.1 hgroup
  exact absurd hm (by decide)

end Pass

end ScriptRunner
