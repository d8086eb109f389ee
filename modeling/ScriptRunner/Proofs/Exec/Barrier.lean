import ScriptRunner.Proofs.Exec.PassRun
import ScriptRunner.Proofs.Order.Layering

/-!
# The barrier between groups

The calls of a pass fall into one segment for each group.  The segment of a group that is over is `Settled`: its calls
are for members of the group, each for another member, and every call has come back.  In the segment of the running
group a call may also be with a worker (`Underway`).  Since a group closes only when all its workers are done, the
segment is settled by then.

A dependency is in an earlier group than its dependent, so its call lies in an earlier segment.
-/

namespace ScriptRunner

open Relation

namespace Pass

/-- The members whose calls begin. -/
def begun (calls : List CallEvent) : List Member := calls.filterMap CallEvent.begun?

theorem begun_append (cs ds : List CallEvent) : begun (cs ++ ds) = begun cs ++ begun ds := List.filterMap_append

theorem mem_begun {calls : List CallEvent} {m : Member} {x : Call} (h : .began m x ∈ calls) : m ∈ begun calls :=
  List.mem_filterMap.2 ⟨_, h, rfl⟩

/-- The call of the member has come back. -/
def Answered (m : Member) (x : Call) (calls : List CallEvent) : Prop :=
  ∃ r, [.began m x, .ended m r].Sublist calls

/-! ### The calls of a group -/

/-- The calls of a group that is over. -/
structure Settled (group : List Member) (calls : List CallEvent) : Prop where
  subset : begun calls ⊆ group
  nodup : group.Nodup → (begun calls).Nodup
  answered : ∀ m x, .began m x ∈ calls → Answered m x calls

/-- The members of the items on which work has begun. -/
def begunItems (group : List Member) (es : List Pool.Event) : List Member :=
  es.filterMap fun e => match e with
    | .began i => group[i]?
    | _ => none

/-- The calls of a group that runs. -/
structure Underway (group : List Member) (pool : Pool ScriptResult) (calls : List CallEvent) : Prop where
  items : ∃ workers es, Pool.Run (fun _ _ => True) workers group.length es pool ∧ begun calls = begunItems group es
  answered : ∀ m x, .began m x ∈ calls → Answered m x calls ∨
    ∃ k i : Nat, pool.workers[k]? = some (.working i) ∧ group[i]? = some m

theorem underway_start (group : List Member) (started : Nat) : Underway group (Pool.start started group.length) [] :=
  ⟨⟨started, [], .start, rfl⟩, by simp⟩

variable {group : List Member} {pool pool' : Pool ScriptResult} {calls cs : List CallEvent} {k : Nat}
  {fs : List Pool.Event}

theorem Answered.append {m : Member} {x : Call} (h : Answered m x calls) (cs : List CallEvent) :
    Answered m x (calls ++ cs) :=
  let ⟨r, h⟩ := h
  ⟨r, h.trans (List.sublist_append_left _ _)⟩

theorem PoolCalls.begun_eq (h : PoolCalls group pool k fs cs) : Pass.begun cs = begunItems group fs := by
  cases h with
  | quiet hw hfs =>
    refine (List.filterMap_eq_nil_iff.2 fun e he => ?_).symm
    cases e with
    | began i => exact absurd he (hfs i)
    | _ => rfl
  | began hm => simp [Pass.begun, begunItems, CallEvent.begun?, hm]
  | ended => rfl

/-- A call that is not with the worker that steps stays where it is. -/
private theorem Underway.other (h : Underway group pool calls) (hs : Pool.Step (fun _ _ => True) pool k fs pool')
    {m : Member} {x : Call} (hk : ∀ i : Nat, pool.workers[k]? = some (.working i) → group[i]? ≠ some m)
    (hx : .began m x ∈ calls) (cs : List CallEvent) :
    Answered m x (calls ++ cs) ∨ ∃ l i : Nat, pool'.workers[l]? = some (.working i) ∧ group[i]? = some m := by
  rcases h.answered m x hx with ha | ⟨l, i, hl, hi⟩
  · exact .inl (ha.append cs)
  · have hlk : l ≠ k := by
      intro hlk
      exact hk i (hlk ▸ hl) hi
    exact .inr ⟨l, i, (hs.effect.other hlk).trans hl, hi⟩

/-- A step of the pool leaves the calls of its group in order. -/
theorem Underway.step (h : Underway group pool calls) (hs : Pool.Step (fun _ _ => True) pool k fs pool')
    (hc : PoolCalls group pool k fs cs) : Underway group pool' (calls ++ cs) := by
  obtain ⟨workers, es, hrun, hbegun⟩ := h.items
  refine ⟨⟨workers, es ++ fs, hrun.step hs, ?_⟩, ?_⟩
  · rw [begun_append, hbegun, hc.begun_eq, begunItems, begunItems, begunItems, List.filterMap_append]
  · intro m x hx
    cases hc with
    | quiet hw =>
      rw [List.append_nil] at hx
      exact h.other hs (fun i hi => absurd hi (hw i)) hx []
    | @began i m' request hm =>
      obtain ⟨hk, hk'⟩ : pool.workers[k]? = some (.claimed i) ∧ pool'.workers[k]? = some (.working i) := by
        cases hs.effect with
        | start hw => exact ⟨hw, Pool.getElem?_set_of_some hw⟩
      rcases List.mem_append.1 hx with hx | hx
      · exact h.other hs (by simp [hk]) hx _
      · obtain ⟨rfl, -⟩ := CallEvent.began.inj (List.mem_singleton.1 hx)
        exact .inr ⟨k, i, hk', hm⟩
    | @ended i m' reply hw hm =>
      replace hx : .began m x ∈ calls := by simpa using hx
      by_cases hmm : m = m'
      · -- this call comes back
        subst hmm
        have hsub : [CallEvent.began m x].Sublist calls := List.singleton_sublist.2 hx
        exact .inl ⟨reply, hsub.append (List.Sublist.refl [CallEvent.ended m reply])⟩
      · refine h.other hs (fun j hj hjm => hmm ?_) hx _
        obtain rfl := Worker.working.inj (Option.some.inj (hw.symm.trans hj))
        exact Option.some.inj (hjm.symm.trans hm)

theorem Underway.subset (h : Underway group pool calls) : begun calls ⊆ group := by
  intro m hm
  obtain ⟨workers, es, -, hbegun⟩ := h.items
  rw [hbegun] at hm
  obtain ⟨e, -, he⟩ := List.mem_filterMap.1 hm
  cases e with
  | began i => exact List.mem_of_getElem? he
  | _ => cases he

/-- An item is worked on once, so a member is called once. -/
theorem Underway.nodup (h : Underway group pool calls) (hn : group.Nodup) : (begun calls).Nodup := by
  obtain ⟨workers, es, hrun, hbegun⟩ := h.items
  rw [hbegun]
  refine List.Nodup.filterMap (fun e f m he hf => ?_) hrun.tidy.nodup
  cases e with
  | began i =>
    cases f with
    | began j =>
      have hi : group[i]? = some m := he
      have hj : group[j]? = some m := hf
      have hij : i = j := (List.getElem?_inj (List.getElem?_eq_some_iff.1 hi).1 hn).1 (hi.trans hj.symm)
      rw [hij]
    | _ => cases hf
  | _ => cases he

/-- When all workers are done, no call is with a worker. -/
theorem Underway.settled (h : Underway group pool calls) (hover : pool.isOver = true) : Settled group calls := by
  refine ⟨h.subset, h.nodup, fun m x hx => (h.answered m x hx).resolve_right ?_⟩
  rintro ⟨k, i, hk, -⟩
  cases List.all_eq_true.1 hover _ (List.mem_of_getElem? hk)

theorem settled_nil (group : List Member) : Settled group [] := ⟨by simp [begun], fun _ => .nil, by simp⟩

/-! ### The calls of a pass -/

/-- The calls since the last group closed. -/
inductive Current (p : Pass) : List CallEvent → Prop
  | none (h : ∀ group pool, p.phase ≠ .running group pool) : Current p []
  | running {group : List Member} {pool : Pool ScriptResult} {calls : List CallEvent}
    (hp : p.phase = .running group pool) (hg : p.nextGroup? = some group) (h : Underway group pool calls) :
    Current p calls

/-- The calls of a pass, in a segment for each group that is over and one for the calls since. -/
structure Segments (p : Pass) (past : List (List CallEvent)) (now : List CallEvent) : Prop where
  length : past.length = p.results.length
  settled : ∀ (g : Nat) seg, past[g]? = some seg → ∃ group, p.plan.groups[g]? = some group ∧ Settled group seg
  current : Current p now

variable {s : RunSettings} {plan : Plan} {p q : Pass} {move : Move} {ws : List Word} {past : List (List CallEvent)}
  {now : List CallEvent}

/-- The end of a group closes its segment. -/
theorem Segments.close {seg : List CallEvent} {rs : List ScriptResult} (h : Segments p past now)
    (hg : p.nextGroup? = some group) (hseg : Settled group seg) :
    Segments { p with phase := .between, results := p.results ++ [rs] } (past ++ [seg]) [] := by
  refine ⟨by simp [h.length], fun g seg' hg' => ?_, .none (by simp)⟩
  rw [List.getElem?_append] at hg'
  split at hg'
  · exact h.settled g seg' hg'
  · rw [List.getElem?_singleton] at hg'
    split at hg'
    · obtain rfl := Option.some.inj hg'
      have hlen : g = p.results.length := by
        have := h.length
        omega
      exact ⟨group, hlen ▸ hg, hseg⟩
    · cases hg'

theorem Segments.effect (h : Segments p past now) (he : Effect s p move cs ws q) :
    ∃ past' now', past.flatten ++ now ++ cs = past'.flatten ++ now' ∧ Segments q past' now' := by
  obtain ⟨-, -, hcur⟩ := id h
  cases hcur with
  | none hp =>
    cases he with
    | conclude => exact ⟨past, [], by simp, h.length, h.settled, .none (by simp)⟩
    | interrupt => exact ⟨past, [], by simp, h.length, h.settled, .none (by simp)⟩
    | @openGroup started elapsed group hp' hg =>
      -- a group that is empty or gets no worker is over without a call
      have skip : ∀ rs, ∃ past' now', past.flatten ++ [] ++ [] = past'.flatten ++ now' ∧
          Segments { p with results := p.results ++ [rs] } past' now' := by
        intro rs
        refine ⟨past ++ [[]], [], by simp, ?_⟩
        have hclose : Segments { p with phase := .between, results := p.results ++ [rs] } (past ++ [[]]) [] :=
          h.close hg (settled_nil group)
        rwa [← hp'] at hclose
      unfold Pass.openGroup
      dsimp only
      split
      · exact skip []
      · split
        · exact skip _
        · exact ⟨past, [], by simp, h.length, h.settled, .running rfl hg (underway_start group started)⟩
    | claim hp' | settle hp' | call hp' | lose hp' | finish hp' | store hp' | close hp' => exact absurd hp' (hp _ _)
  | running hp hg hun =>
    rcases he.running hp with ⟨k, fs, pool', hs, hc, rfl⟩ | ⟨hover, rfl, rfl⟩
    · refine ⟨past, now ++ cs, by simp, h.length, h.settled, .running rfl hg (hun.step hs hc)⟩
    · exact ⟨past ++ [now], [], by simp, h.close hg (hun.settled hover)⟩

/-- The calls of every run fall into segments. -/
theorem Run.segments {moves : List Move} {words : List Word} (h : Run s plan moves calls words p) :
    ∃ past now, calls = past.flatten ++ now ∧ Segments p past now := by
  induction h with
  | start => exact ⟨[], [], rfl, rfl, by simp, .none (by simp)⟩
  | move _ hm ih =>
    obtain ⟨past, now, rfl, hseg⟩ := ih
    exact hseg.effect (effect_of_move? hm)

/-! ### The order of the calls -/

theorem sublist_flatten_of_lt {α : Type} {segs : List (List α)} {u v : List α} {k m : Nat} (hu : segs[k]? = some u)
    (hv : segs[m]? = some v) (hkm : k < m) : (u ++ v).Sublist segs.flatten := by
  induction segs generalizing k m with
  | nil => cases hu
  | cons w segs ih =>
    obtain ⟨m, rfl⟩ := Nat.exists_eq_add_one_of_ne_zero (Nat.ne_zero_of_lt hkm)
    cases k with
    | zero =>
      obtain rfl := Option.some.inj hu
      exact (List.Sublist.refl _).append (List.sublist_flatten_of_mem (List.mem_of_getElem? hv))
    | succ k => exact (ih hu hv (Nat.lt_of_succ_lt_succ hkm)).trans (List.sublist_append_right _ _)

/-- A segment without calls, or the segment of a group. -/
theorem Segments.segment (h : Segments p past now) {g : Nat} {seg : List CallEvent}
    (hseg : (past ++ [now])[g]? = some seg) :
    seg = [] ∨ ∃ group, p.plan.groups[g]? = some group ∧ begun seg ⊆ group ∧ (group.Nodup → (begun seg).Nodup) := by
  rw [List.getElem?_append] at hseg
  split at hseg
  · obtain ⟨group, hg, hs⟩ := h.settled g seg hseg
    exact .inr ⟨group, hg, hs.subset, hs.nodup⟩
  · rw [List.getElem?_singleton] at hseg
    split at hseg
    · obtain rfl := Option.some.inj hseg
      have hlen : g = p.results.length := by
        have := h.length
        omega
      cases h.current with
      | none => exact .inl rfl
      | running hp hg hun => exact .inr ⟨_, hlen ▸ hg, hun.subset, hun.nodup⟩
    · cases hseg

/-- The members called in a segment are in its group. -/
theorem Segments.inGroup (h : Segments p past now) {g : Nat} {seg : List CallEvent} {m : Member}
    (hseg : (past ++ [now])[g]? = some seg) (hm : m ∈ begun seg) : InGroup p.plan.groups g m := by
  rcases h.segment hseg with rfl | ⟨group, hg, hsub, -⟩
  · cases hm
  · exact ⟨group, hg, hsub hm⟩

/-- A call is answered before a later segment begins. -/
theorem Segments.answered (h : Segments p past now) {k m : Nat} {u v : List CallEvent} {a b : Member} {x y : Call}
    (hu : (past ++ [now])[k]? = some u) (hv : (past ++ [now])[m]? = some v) (hkm : k < m) (hb : .began b y ∈ u)
    (ha : .began a x ∈ v) : ∃ r, [.began b y, .ended b r, .began a x].Sublist (past ++ [now]).flatten := by
  have hm := (List.getElem?_eq_some_iff.1 hv).1
  rw [List.length_append, List.length_singleton] at hm
  have hpast : past[k]? = some u := by
    rwa [List.getElem?_append_left (by omega)] at hu
  obtain ⟨group, -, hs⟩ := h.settled k u hpast
  obtain ⟨r, hr⟩ := hs.answered b y hb
  exact ⟨r, (hr.append (List.singleton_sublist.2 ha)).trans (sublist_flatten_of_lt hu hv hkm)⟩

/-- No member is called twice when none is in two places of the plan. -/
theorem Segments.nodup (h : Segments p past now) (hn : p.plan.order.Nodup) : (begun (past ++ [now]).flatten).Nodup := by
  obtain ⟨hgroups, hdisjoint⟩ := List.nodup_flatten.1 hn
  rw [begun, List.filterMap_flatten, List.nodup_flatten, List.pairwise_map]
  refine ⟨fun l hl => ?_, List.pairwise_iff_getElem.2 fun i j hi hj hij m hmi hmj => ?_⟩
  · obtain ⟨seg, hseg, rfl⟩ := List.mem_map.1 hl
    obtain ⟨g, hg⟩ := List.mem_iff_getElem?.1 hseg
    rcases h.segment hg with rfl | ⟨group, hgroup, -, hnodup⟩
    · exact .nil
    · exact hnodup (hgroups group (List.mem_of_getElem? hgroup))
  · obtain ⟨u, hu, hmu⟩ := h.inGroup (List.getElem?_eq_getElem hi) hmi
    obtain ⟨v, hv, hmv⟩ := h.inGroup (List.getElem?_eq_getElem hj) hmj
    obtain ⟨hi', rfl⟩ := List.getElem?_eq_some_iff.1 hu
    obtain ⟨hj', rfl⟩ := List.getElem?_eq_some_iff.1 hv
    exact List.pairwise_iff_getElem.1 hdisjoint i j hi' hj' hij hmu hmv

end Pass

namespace Plan

open Pass

/-- `a` depends on `b`, directly or through other members of the plan. -/
def DependsOn (plan : Plan) (deps : Dependencies) (a b : Member) : Prop :=
  TransGen (fun a b => a ∈ plan.order ∧ b ∈ plan.order ∧ Depends deps a.name b.name) a b

variable {members : List Member} {deps : Dependencies} {plan : Plan}

theorem DependsOn.nameEdge {a b : Member} (hmem : plan.order ⊆ members) (h : plan.DependsOn deps a b) :
    TransGen (NameEdge (members.map (·.name)) deps) b.name a.name := by
  refine TransGen.swap _ _ (TransGen.lift Member.name (fun x y hxy => ?_) _ _ h)
  obtain ⟨hx, hy, hd⟩ := hxy
  exact ⟨List.mem_map_of_mem (hmem hy), List.mem_map_of_mem (hmem hx), hd⟩

/-- In a pass over a plan of distinct members, a dependent's call begins only after the call of what it depends on has
come back, and no member is called twice. -/
theorem calls_follow_dependencies {s : RunSettings} {moves : List Move} {calls : List CallEvent} {words : List Word}
    {p : Pass} (hn : (members.map (·.name)).Nodup) (h : (ofMembers members deps true).value = .ok plan)
    (hrun : Pass.Run s plan moves calls words p) :
    (∀ a b x y, plan.DependsOn deps a b → .began a x ∈ calls → .began b y ∈ calls →
      ∃ r, [.began b y, .ended b r, .began a x].Sublist calls) ∧ (begun calls).Nodup := by
  rw [value_ofMembers_ordered] at h
  obtain ⟨past, now, hcalls, hseg⟩ := hrun.segments
  obtain rfl := hrun.plan_eq
  have hflat : calls = (past ++ [now]).flatten := by rw [hcalls]; simp
  subst hflat
  refine ⟨fun a b x y hab ha hb => ?_, hseg.nodup (nodup_order hn h)⟩
  obtain ⟨u, hu, hbu⟩ := List.mem_flatten.1 hb
  obtain ⟨v, hv, hav⟩ := List.mem_flatten.1 ha
  obtain ⟨k, hk⟩ := List.mem_iff_getElem?.1 hu
  obtain ⟨m, hm⟩ := List.mem_iff_getElem?.1 hv
  -- the segments of the two calls are those of their groups, and the groups are in order
  have hkm := group_lt_of_transGen hn h (hseg.inGroup hk (mem_begun hbu)) (hseg.inGroup hm (mem_begun hav))
    (hab.nameEdge (order_perm h).subset)
  exact hseg.answered hk hm hkm hbu hav

/-- The call of a dependency is lost with its worker, and the dependent's call still comes after it. -/
theorem calls_follow_dependencies_lost_call :
    (ofMembers [⟨"web", "web", "/ws/web", none, none⟩, ⟨"core", "core", "/ws/core", none, none⟩]
        (SortedMap.ofList [("web", ["core"])]) true).value =
      .ok ⟨[[⟨"core", "core", "/ws/core", none, none⟩], [⟨"web", "web", "/ws/web", none, none⟩]]⟩ ∧
    ∃ moves calls words p, Pass.Run ⟨⟨"build", []⟩, none, 1⟩
        ⟨[[⟨"core", "core", "/ws/core", none, none⟩], [⟨"web", "web", "/ws/web", none, none⟩]]⟩ moves calls words p ∧
      (begun calls).Nodup ∧
      ∃ r, [.began ⟨"core", "core", "/ws/core", none, none⟩ ⟨"/ws/core", ["sh", "-c", "make"], none⟩,
        .ended ⟨"core", "core", "/ws/core", none, none⟩ r,
        .began ⟨"web", "web", "/ws/web", none, none⟩ ⟨"/ws/web", ["sh", "-c", "make"], none⟩].Sublist calls := by
  have hplan : (ofMembers [⟨"web", "web", "/ws/web", none, none⟩, ⟨"core", "core", "/ws/core", none, none⟩]
      (SortedMap.ofList [("web", ["core"])]) true).value =
        .ok ⟨[[⟨"core", "core", "/ws/core", none, none⟩], [⟨"web", "web", "/ws/web", none, none⟩]]⟩ := by
    decide +kernel
  have hrun : Pass.Run ⟨⟨"build", []⟩, none, 1⟩
      ⟨[[⟨"core", "core", "/ws/core", none, none⟩], [⟨"web", "web", "/ws/web", none, none⟩]]⟩
      [.boundary false 1 ⟨0⟩, .claim 0, .start 0 (.ok (some (.ofList [("build", "make")]))), .finish 0 .lost ⟨0⟩,
        .close, .boundary false 1 ⟨0⟩, .claim 0, .start 0 (.ok (some (.ofList [("build", "make")])))]
      [.began ⟨"core", "core", "/ws/core", none, none⟩ ⟨"/ws/core", ["sh", "-c", "make"], none⟩,
        .ended ⟨"core", "core", "/ws/core", none, none⟩ .lost,
        .began ⟨"web", "web", "/ws/web", none, none⟩ ⟨"/ws/web", ["sh", "-c", "make"], none⟩] _ _ :=
    run_iff_play?.2 rfl
  obtain ⟨horder, hnodup⟩ := calls_follow_dependencies (by decide) hplan hrun
  refine ⟨hplan, _, _, _, _, hrun, hnodup, ?_⟩
  refine horder ⟨"web", "web", "/ws/web", none, none⟩ ⟨"core", "core", "/ws/core", none, none⟩ _ _
    (.single ⟨by decide, by decide, ["core"], by decide +kernel, by decide⟩) ?_ ?_ <;>
    simp

end Plan

end ScriptRunner
