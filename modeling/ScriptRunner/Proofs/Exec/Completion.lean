import ScriptRunner.Proofs.Exec.Driving
import ScriptRunner.Proofs.Exec.Progress

/-!
# Passes that come to their end

A driven pass is over from some number of rounds on exactly if every call comes back (`finished_iff_callsReturn`).  The
calls under way are at all times those that workers wait for (`Drive.Attended`).  So a round either uses up rank of the
pass, or nobody can move for want of a reply (`Drive.Attended.round`).  The rank does not go down for ever, and it does
not stay the same for ever either, as the pass and its calls would stay the same with it (`exists_rank_lt`).
-/

namespace ScriptRunner

namespace Pass

variable {σ τ : Type} {host : Host σ τ} {s : RunSettings} {plan : Plan} {p q : Pass} {move : Move}
  {calls : List CallEvent} {ws : List Word} {group : List Member} {pool pool' : Pool ScriptResult} {k : Nat}
  {d : Drive σ τ}

/-! ### Workers that wait -/

/-- Worker `k` waits for its call. -/
def Waits (p : Pass) (k : Nat) : Prop :=
  ∃ group pool i, p.phase = .running group pool ∧ pool.workers[k]? = some (.working i)

theorem waits_iff (hp : p.phase = .running group pool) : p.Waits k ↔ ∃ i, pool.workers[k]? = some (.working i) := by
  simp [Waits, hp]

theorem not_waits (hp : ∀ group pool, p.phase ≠ .running group pool) : ¬p.Waits k :=
  fun ⟨group, pool, _, h, _⟩ => hp group pool h

theorem not_waits_of_running {w : Worker ScriptResult} (hp : p.phase = .running group pool)
    (hw : pool.workers[k]? = some w) (hne : ∀ i, w ≠ .working i) : ¬p.Waits k := by
  rw [waits_iff hp, hw]
  exact fun ⟨i, hi⟩ => hne i (Option.some.inj hi)

/-- The worker that a move is of. -/
def Move.worker? : Move → Option Nat
  | .claim k | .start k _ | .finish k _ _ | .store k => some k
  | .boundary _ _ _ | .close => none

private theorem waits_set {v w : Worker ScriptResult} (hp : p.phase = .running group pool)
    (hq : q.phase = .running group pool') (hv : pool.workers[k]? = some v) (hw : pool'.workers = pool.workers.set k w)
    (l : Nat) : q.Waits l ↔ l ≠ k ∧ p.Waits l ∨ l = k ∧ ∃ i, w = .working i := by
  rw [waits_iff hq, waits_iff hp, hw]
  by_cases hl : l = k
  · subst hl
    simp [Pool.getElem?_set_of_some hv]
  · simp [hl, List.getElem?_set_ne (Ne.symm hl)]

/-- A move of a worker changes nothing for the others, and the worker waits after it if the move has begun a call. -/
theorem Effect.waits_iff (h : Effect s p move calls ws q) (hk : move.worker? = some k) (l : Nat) :
    q.Waits l ↔ l ≠ k ∧ p.Waits l ∨ l = k ∧ ∃ m request, .began m request ∈ calls := by
  cases h with
  | conclude | interrupt | openGroup | close => cases hk
  | claim hp hc =>
    obtain rfl := Option.some.inj hk
    obtain ⟨hw, w, hw', rfl⟩ := Pool.ready_of_claim? hc
    refine (waits_set hp rfl hw rfl l).trans ?_
    rcases hw' with ⟨-, rfl⟩ | ⟨-, rfl⟩ <;> simp
  | settle hp hw | call hp hw | lose hp hw | finish hp hw =>
    obtain rfl := Option.some.inj hk
    refine (waits_set hp rfl hw rfl l).trans ?_
    simp
  | store hp hw hs =>
    obtain rfl := Option.some.inj hk
    obtain rfl := Option.some.inj ((Pool.store?_of_holding hw).symm.trans hs)
    refine (waits_set hp rfl hw rfl l).trans ?_
    simp

/-- Nobody waits when a group has just been opened or closed. -/
theorem Effect.not_waits (h : Effect s p move calls ws q) (hk : move.worker? = none) (l : Nat) : ¬q.Waits l := by
  cases h with
  | conclude | interrupt | close => exact Pass.not_waits nofun
  | openGroup hp =>
    unfold Pass.openGroup
    dsimp only
    split
    · exact Pass.not_waits (by simp [hp])
    · split
      · exact Pass.not_waits (by simp [hp])
      · rw [Pass.waits_iff rfl]
        rintro ⟨i, hi⟩
        cases List.eq_of_mem_replicate (List.mem_of_getElem? hi)
  | claim | settle | call | lose | finish | store => cases hk

/-! ### Drives -/

/-- The workers whose calls are under way. -/
def Drive.callers (d : Drive σ τ) : List Nat := d.calls.map Prod.fst

/-- The pass of a drive is a run over the plan, and the calls under way are those that its workers wait for. -/
structure Drive.Attended (s : RunSettings) (plan : Plan) (d : Drive σ τ) : Prop where
  run : ∃ moves calls words, Run s plan moves calls words d.pass
  waits : ∀ k, k ∈ d.callers ↔ d.pass.Waits k

theorem Drive.Attended.calls_eq_nil (h : d.Attended s plan) (hw : ∀ k, ¬d.pass.Waits k) : d.calls = [] := by
  have hnone : d.callers = [] := List.eq_nil_iff_forall_not_mem.2 fun k hk => hw k ((h.waits k).1 hk)
  simpa [Drive.callers] using hnone

theorem make_of_move? (host : Host σ τ) (h : d.pass.move? s move = some (q, ws)) :
    d.make host s move = { d with pass := q, world := host.tell ws d.world } := by
  simp only [Drive.make, h]

/-- A move between groups, or from a group that is over. -/
theorem Drive.Attended.between (h : d.Attended s plan) (hm : d.pass.move? s move = some (q, ws))
    (hk : move.worker? = none) (hw : ∀ l, ¬d.pass.Waits l) (hc : Crewed d.pass move) :
    (d.make host s move).Attended s plan ∧ (d.make host s move).pass.rank < d.pass.rank := by
  obtain ⟨moves, calls, words, hrun⟩ := h.run
  have heffect := effect_of_move? hm
  rw [make_of_move? host hm]
  refine ⟨⟨⟨_, _, _, hrun.move hm⟩, fun l => ?_⟩, heffect.rank_lt hc⟩
  have hnil : d.calls = [] := h.calls_eq_nil hw
  simp [Drive.callers, hnil, heffect.not_waits hk]

/-! ### One round -/

/-- Worker `k` is done or waits for its call. -/
def Rests (p : Pass) (k : Nat) : Prop :=
  ∀ group pool w, p.phase = .running group pool → pool.workers[k]? = some w → w.isOver = true ∨ p.Waits k

/-- What comes of the turns of some workers: one of them has moved, which has used up rank, or all of them rest. -/
inductive Turned (s : RunSettings) (plan : Plan) (d : Drive σ τ) (ks : List Nat) : Drive σ τ × Bool → Prop
  | moved {e : Drive σ τ} (ha : e.Attended s plan) (hlt : e.pass.rank < d.pass.rank) : Turned s plan d ks (e, true)
  | rested {e : Drive σ τ} (hpass : e.pass = d.pass) (hcalls : e.calls = d.calls) (hr : ∀ k ∈ ks, d.pass.Rests k) :
    Turned s plan d ks (e, false)

theorem Drive.Attended.of_eq {e : Drive σ τ} (h : d.Attended s plan) (hpass : e.pass = d.pass)
    (hcalls : e.calls = d.calls) : e.Attended s plan :=
  ⟨hpass ▸ h.run, by simpa only [Drive.callers, hpass, hcalls] using h.waits⟩

/-- A worker that is done, or waits for its call, or is not there. -/
theorem turned_of_rests (hp : d.pass.phase = .running group pool)
    (hw : ∀ w, pool.workers[k]? = some w → w.isOver = true ∨ ∃ i, w = .working i) {e : Drive σ τ}
    (hpass : e.pass = d.pass) (hcalls : e.calls = d.calls) : Turned s plan d [k] (e, false) := by
  refine .rested hpass hcalls fun l hl group' pool' w hp' hw' => ?_
  obtain rfl := List.mem_singleton.1 hl
  obtain ⟨rfl, rfl⟩ := Phase.running.inj (hp.symm.trans hp')
  exact (hw w hw').imp_right fun ⟨i, hi⟩ => ⟨_, _, i, hp, hi ▸ hw'⟩

theorem Drive.Attended.moved {e : Drive σ τ} (h : d.Attended s plan) (hm : d.pass.move? s move = some (e.pass, ws))
    (hk : move.worker? = some k) (hcalls : ∀ l, l ∈ e.callers ↔
      l ≠ k ∧ l ∈ d.callers ∨ l = k ∧ ∃ m request, .began m request ∈ d.pass.callsOf s move) :
    Turned s plan d [k] (e, true) := by
  obtain ⟨moves, calls, words, hrun⟩ := h.run
  have heffect := effect_of_move? hm
  refine .moved ⟨⟨_, _, _, hrun.move hm⟩, fun l => ?_⟩ (heffect.rank_lt ?_)
  · rw [hcalls, heffect.waits_iff hk, h.waits]
  · -- no worker opens a group
    rintro started elapsed group rfl
    cases hk

/-- A worker that did not wait has moved, and has begun no call. -/
theorem Drive.Attended.moved_of_not_waits {e : Drive σ τ} (h : d.Attended s plan)
    (hm : d.pass.move? s move = some (e.pass, ws)) (hk : move.worker? = some k) (hw : ¬d.pass.Waits k)
    (hcalls : e.calls = d.calls) (hb : d.pass.callsOf s move = []) : Turned s plan d [k] (e, true) := by
  refine h.moved hm hk fun l => ?_
  have hcallers : e.callers = d.callers := congrArg (List.map Prod.fst) hcalls
  simp only [hb, hcallers, List.not_mem_nil, exists_false, and_false, or_false]
  exact ⟨fun hl => ⟨fun heq => hw ((h.waits k).1 (heq ▸ hl)), hl⟩, And.right⟩

/-- The turn of a worker that has claimed a member: it reads the table, and may call the script. -/
theorem Drive.Attended.start {i : Nat} (h : d.Attended s plan) (host : Host σ τ)
    (hp : d.pass.phase = .running group pool) (hw : pool.workers[k]? = some (.claimed i)) :
    Turned s plan d [k] (d.advance host s k) := by
  obtain ⟨moves, calls, words, hrun⟩ := h.run
  obtain ⟨m, hi⟩ := hrun.account.exists_item hp hw rfl
  have hmember : d.pass.memberAt? k = some m := (memberAt?_of_claimed hp hw).trans hi
  obtain ⟨q, ws, hm⟩ := exists_start (s := s) hp hw hi (host.table m d.world).1
  have hmake := make_of_move? (d := { d with world := (host.table m d.world).2 }) host hm
  simp only [Drive.advance, hp, hw, hmember, hmake]
  cases ho : (opening s m (host.table m d.world).1).value with
  | settled r =>
    exact h.moved_of_not_waits hm rfl (not_waits_of_running hp hw (by simp)) rfl (by simp only [callsOf, hmember, ho])
  | call request =>
    refine h.moved hm rfl fun l => ?_
    by_cases hl : l = k <;> simp [callsOf, hmember, ho, Drive.callers, hl]

/-- The turn of a worker whose script was called: the call has come back, or is still waited for. -/
theorem Drive.Attended.finish {i : Nat} (h : d.Attended s plan) (host : Host σ τ)
    (hp : d.pass.phase = .running group pool) (hw : pool.workers[k]? = some (.working i)) :
    Turned s plan d [k] (d.advance host s k) := by
  obtain ⟨moves, calls, words, hrun⟩ := h.run
  obtain ⟨m, hi⟩ := hrun.account.exists_item hp hw rfl
  have hmember : d.pass.memberAt? k = some m := (memberAt?_of_working hp hw).trans hi
  have hrests : ∀ {e : Drive σ τ}, e.pass = d.pass → e.calls = d.calls → Turned s plan d [k] (e, false) :=
    turned_of_rests hp fun w hw' => .inr ⟨i, Option.some.inj (hw'.symm.trans hw)⟩
  cases hcall : d.calls.lookup k with
  | none =>
    simp only [Drive.advance, hp, hw, hcall]
    exact hrests rfl rfl
  | some call =>
    simp only [Drive.advance, hp, hw, hcall]
    cases (host.reply? call d.world).1 with
    | none => exact hrests rfl rfl
    | some answer =>
      obtain ⟨reply, took⟩ := answer
      obtain ⟨q, ws, hm⟩ := exists_finish (s := s) hp hw hi reply took
      have hmake := make_of_move? (d := { d with
        world := (host.reply? call d.world).2, calls := d.calls.filter (·.1 ≠ k) }) host hm
      simp only [hmake]
      refine h.moved hm rfl fun l => ?_
      by_cases hl : l = k <;> simp [callsOf, hmember, Drive.callers, hl]

theorem Drive.Attended.advance (h : d.Attended s plan) (host : Host σ τ) (k : Nat) :
    Turned s plan d [k] (d.advance host s k) := by
  cases hp : d.pass.phase with
  | between | finished =>
    simp only [Drive.advance, hp]
    exact .rested rfl rfl fun l _ group pool w hp' => absurd hp' (by simp [hp])
  | running group pool =>
    cases hw : pool.workers[k]? with
    | none =>
      simp only [Drive.advance, hp, hw]
      exact turned_of_rests hp (by simp [hw]) rfl rfl
    | some w =>
      cases w with
      | ready =>
        obtain ⟨q, hm⟩ := exists_claim (s := s) hp hw
        simp only [Drive.advance, hp, hw, make_of_move? host hm]
        exact h.moved_of_not_waits hm rfl (not_waits_of_running hp hw (by simp)) rfl rfl
      | claimed i => exact h.start host hp hw
      | working i => exact h.finish host hp hw
      | holding i r =>
        obtain ⟨q, hm⟩ := exists_store (s := s) hp hw
        simp only [Drive.advance, hp, hw, make_of_move? host hm]
        exact h.moved_of_not_waits hm rfl (not_waits_of_running hp hw (by simp)) rfl rfl
      | ended | lost =>
        simp only [Drive.advance, hp, hw]
        exact turned_of_rests hp (by simp [hw, Worker.isOver]) rfl rfl

theorem Drive.Attended.turns (h : d.Attended s plan) (host : Host σ τ) (ks : List Nat) :
    Turned s plan d ks (d.turns host s ks) := by
  induction ks using List.reverseRecOn with
  | nil => exact .rested rfl rfl nofun
  | append_singleton ks k ih =>
    rw [Drive.turns_snoc]
    generalize d.turns host s ks = acc at ih
    -- once somebody has moved, the rank stays below that of `d`; before, the drive still has the pass and calls of `d`
    cases ih with
    | @moved e ha hlt =>
      have hturn := ha.advance host k
      generalize e.advance host s k = acc at hturn
      cases hturn with
      | moved ha' hlt' => exact .moved ha' (hlt'.trans hlt)
      | rested hpass hcalls => exact .moved (ha.of_eq hpass hcalls) (hpass ▸ hlt)
    | @rested e hpass hcalls hr =>
      have hturn := (h.of_eq hpass hcalls).advance host k
      generalize e.advance host s k = acc at hturn
      cases hturn with
      | moved ha' hlt' => exact .moved ha' (hpass ▸ hlt')
      | rested hpass' hcalls' hr' =>
        refine .rested (hpass'.trans hpass) (hcalls'.trans hcalls) fun l hl => ?_
        rcases List.mem_append.1 hl with hl | hl
        · exact hr l hl
        · exact hpass ▸ hr' l hl

/-- A round uses up rank, or everybody waits for calls that are under way. -/
theorem Drive.Attended.round (h : d.Attended s plan) (host : Host σ τ) (hf : d.pass.phase ≠ .finished) :
    (d.round host s).Attended s plan ∧ ((d.round host s).pass.rank < d.pass.rank ∨
      (d.round host s).pass = d.pass ∧ (d.round host s).calls = d.calls ∧ d.calls ≠ []) := by
  cases hp : d.pass.phase with
  | finished => exact absurd hp hf
  | between =>
    simp only [Drive.round, hp]
    generalize hn : min s.workers (d.pass.nextGroup?.getD []).length = wanted
    obtain ⟨q, ws, hm⟩ := exists_boundary (s := s) hp (host.stopping d.world)
      (min wanted (host.startable wanted d.world)) ⟨(host.now d.world).nanos - d.began.nanos⟩
    refine (h.between hm rfl (fun l => not_waits (by simp [hp])) ?_).imp_right .inl
    -- no more workers are wanted than the group has members
    rintro started elapsed group heq hg -
    obtain ⟨-, rfl, -⟩ := Move.boundary.inj heq
    have hlen : (d.pass.nextGroup?.getD []).length = group.length := by rw [hg, Option.getD_some]
    omega
  | running group pool =>
    cases hover : pool.isOver with
    | true =>
      obtain ⟨q, ws, hm⟩ := exists_close (s := s) hp hover
      simp only [Drive.round, hp, hover, if_true]
      refine (h.between hm rfl (fun l hl => ?_) (by simp [Crewed])).imp_right .inl
      obtain ⟨i, hi⟩ := (waits_iff hp).1 hl
      exact absurd (List.all_eq_true.1 hover _ (List.mem_of_getElem? hi)) (by simp [Worker.isOver])
    | false =>
      have hturns := h.turns host (List.range pool.workers.length)
      rw [Drive.round_of_running hp hover]
      generalize d.turns host s (List.range pool.workers.length) = acc at hturns
      cases hturns with
      | moved ha hlt => exact ⟨ha, .inl hlt⟩
      | rested hpass hcalls hr =>
        refine ⟨h.of_eq hpass hcalls, .inr ⟨hpass, hcalls, fun hnil => ?_⟩⟩
        -- a worker that is not done waits for a call
        obtain ⟨k, w, hk, hwover⟩ := Pool.exists_worker hover
        have hlen : k < pool.workers.length := (List.getElem?_eq_some_iff.1 hk).1
        rcases hr k (List.mem_range.2 hlen) group pool w hp hk with hdone | hwaits
        · exact absurd hdone (by simp [hwover])
        · have hcaller := (h.waits k).2 hwaits
          simp [Drive.callers, hnil] at hcaller

/-! ### All rounds -/

theorem run_succ (host : Host σ τ) (s : RunSettings) (n : Nat) (plan : Plan) (x : σ) :
    run host s (n + 1) plan x = (run host s n plan x).round host s :=
  Drive.run_succ n _

/-- A pass that is over stays as it is. -/
theorem run_of_finished {x : σ} {m n : Nat} (hf : (run host s m plan x).pass.phase = .finished) (hmn : m ≤ n) :
    run host s n plan x = run host s m plan x := by
  induction n, hmn using Nat.le_induction with
  | base => rfl
  | succ n _ ih => rw [run_succ, ih, Drive.round_of_finished hf]

theorem attended_run (host : Host σ τ) (s : RunSettings) (n : Nat) (plan : Plan) (x : σ) :
    (run host s n plan x).Attended s plan := by
  induction n with
  | zero => exact ⟨⟨[], [], [], .start⟩, fun k => by simp [run, Drive.run, Drive.callers, not_waits]⟩
  | succ n ih =>
    rw [run_succ]
    by_cases hf : (run host s n plan x).pass.phase = .finished
    · rwa [Drive.round_of_finished hf]
    · exact (ih.round host hf).1

/-- Every call of a driven pass comes back: after some more rounds it is no longer under way. -/
def CallsReturn (host : Host σ τ) (s : RunSettings) (plan : Plan) (x : σ) : Prop :=
  ∀ n, ∀ c ∈ (run host s n plan x).calls, ∃ m, n ≤ m ∧ c ∉ (run host s m plan x).calls

variable {x : σ} {n : Nat}

/-- If all calls come back, a pass that is not over uses up rank sooner or later. -/
theorem exists_rank_lt (hr : CallsReturn host s plan x) (hf : (run host s n plan x).pass.phase ≠ .finished) :
    ∃ m, (run host s m plan x).pass.rank < (run host s n plan x).pass.rank := by
  by_contra! hstill
  have hround : ∀ m, (run host s m plan x).pass = (run host s n plan x).pass →
      (run host s (m + 1) plan x).pass = (run host s m plan x).pass ∧
        (run host s (m + 1) plan x).calls = (run host s m plan x).calls ∧ (run host s m plan x).calls ≠ [] := by
    intro m hm
    rcases ((attended_run host s m plan x).round host (hm ▸ hf)).2 with hlt | hwait
    · rw [← run_succ, hm] at hlt
      exact absurd hlt (Nat.not_lt.2 (hstill _))
    · rwa [← run_succ] at hwait
  -- so the pass and its calls stay the same, and none of them comes back
  have hsame : ∀ m, n ≤ m → (run host s m plan x).pass = (run host s n plan x).pass ∧
      (run host s m plan x).calls = (run host s n plan x).calls := by
    intro m hm
    induction m, hm using Nat.le_induction with
    | base => exact ⟨rfl, rfl⟩
    | succ m _ ih =>
      obtain ⟨hpass, hcalls, -⟩ := hround m ih.1
      exact ⟨hpass.trans ih.1, hcalls.trans ih.2⟩
  obtain ⟨c, hc⟩ := List.exists_mem_of_ne_nil _ (hround n rfl).2.2
  obtain ⟨m, hm, hgone⟩ := hr n c hc
  exact hgone ((hsame m hm).2 ▸ hc)

/-- If all calls come back, the pass comes to its end.  The induction is on the rank that is left after `n` rounds. -/
theorem exists_finished (hr : CallsReturn host s plan x) (n : Nat) :
    ∃ m, (run host s m plan x).pass.phase = .finished := by
  induction hrank : (run host s n plan x).pass.rank using Nat.strong_induction_on generalizing n with
  | _ r ih =>
    by_cases hf : (run host s n plan x).pass.phase = .finished
    · exact ⟨n, hf⟩
    · obtain ⟨m, hm⟩ := exists_rank_lt hr hf
      exact ih _ (hrank ▸ hm) m rfl

/-- A driven pass is over from some number of rounds on exactly if all of its calls come back. -/
theorem finished_iff_callsReturn (host : Host σ τ) (s : RunSettings) (plan : Plan) (x : σ) :
    (∃ n, ∀ fuel, n ≤ fuel → (run host s fuel plan x).pass.phase = .finished) ↔ CallsReturn host s plan x := by
  constructor
  · rintro ⟨n, hn⟩ m c -
    have hf := hn (max m n) (Nat.le_max_right m n)
    refine ⟨max m n, Nat.le_max_left m n, ?_⟩
    rw [(attended_run host s _ plan x).calls_eq_nil fun k => not_waits (by simp [hf])]
    exact List.not_mem_nil
  · intro hr
    obtain ⟨n, hn⟩ := exists_finished hr 0
    exact ⟨n, fun fuel hfuel => (run_of_finished hn hfuel).symm ▸ hn⟩

end Pass

end ScriptRunner
