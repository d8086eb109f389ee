import ScriptRunner.Proofs.Exec.PoolSlots

/-!
# The schedule of a pool

`Pool.map` lets its workers take turns.  A turn is a sequence of steps of one worker (`exists_run_turn`), so `map` makes
one of the runs of `Pool.Run`, and it ends in a state in which every worker is done (`isOver_run`): in each round some
worker moves the cursor on, and once no item is left a round ends all workers.
-/

namespace ScriptRunner

universe u v

variable {ρ : Type u}

namespace Pool

variable {work : Nat → Option ρ} {p : Pool ρ} {k : Nat} {workers items : Nat}

/-! ### Turns are steps -/

/-- A turn is a sequence of steps of its worker. -/
theorem exists_run_turn (h : ∃ es, Run (Follows work) workers items es p) (k : Nat) :
    ∃ es, Run (Follows work) workers items es (turn work p k) := by
  obtain ⟨es, h⟩ := h
  unfold turn
  cases hc : p.claim? k with
  | none => exact ⟨es, h⟩
  | some q =>
    have hclaim := h.step (.claim hc)
    dsimp only
    split
    · rename_i i hw
      have hopen : q.openItem? k = some i := by simp only [openItem?, hw]
      cases hwork : work i with
      | none =>
        simp only [lose?_of_openItem? hopen, Option.getD_some]
        exact ⟨_, hclaim.step (.lose hopen hwork (lose?_of_openItem? hopen))⟩
      | some r =>
        have hw' : (q.setWorker k (.working i)).workers[k]? = some (.working i) := getElem?_set_of_some hw
        have hopen' : (q.setWorker k (.working i)).openItem? k = some i := by simp only [openItem?, hw']
        have hhold : ((q.setWorker k (.working i)).setWorker k (.holding i r)).workers[k]? = some (.holding i r) :=
          getElem?_set_of_some hw'
        simp only [start?_of_claimed hw, finish?_of_openItem? hopen', store?_of_holding hhold, Option.bind_some,
          Option.getD_some]
        have hstart := hclaim.step (.start hopen (start?_of_claimed hw))
        have hfinish := hstart.step (.finish hopen' hwork (finish?_of_openItem? hopen' r))
        exact ⟨_, hfinish.step (.store hhold (store?_of_holding hhold))⟩
    · exact ⟨_, hclaim⟩

theorem exists_run_round (h : ∃ es, Run (Follows work) workers items es p) (ks : List Nat) :
    ∃ es, Run (Follows work) workers items es (ks.foldl (turn work) p) := by
  induction ks generalizing p with
  | nil => exact h
  | cons k ks ih => exact ih (exists_run_turn h k)

theorem exists_run_run (h : ∃ es, Run (Follows work) workers items es p) (fuel : Nat) :
    ∃ es, Run (Follows work) workers items es (run work fuel p) := by
  induction fuel generalizing p with
  | zero => exact h
  | succ fuel ih =>
    unfold run
    split
    · exact h
    · exact ih (exists_run_round h _)

/-! ### All workers are done in the end -/

/-- No worker is in the middle of an item. -/
def Resting (p : Pool ρ) : Prop := ∀ (k : Nat) (w : Worker ρ), p.workers[k]? = some w → w = .ready ∨ w.isOver = true

theorem turn_of_not_ready (h : p.workers[k]? ≠ some .ready) : turn work p k = p := by
  have hc : p.claim? k = none := by
    unfold claim?
    split
    · contradiction
    · rfl
  simp only [turn, hc]

/-- What a turn comes to: the worker is ready again or done, and done when no item is left. -/
theorem turn_of_ready (work : Nat → Option ρ) (h : p.workers[k]? = some .ready) :
    ∃ w, (turn work p k).workers = p.workers.set k w ∧ (turn work p k).cursor = p.cursor + 1 ∧
      (turn work p k).slots.length = p.slots.length ∧ (w = .ready ∨ w.isOver = true) ∧
      (p.slots.length ≤ p.cursor → w.isOver = true) := by
  have hset : ∀ w, (p.workers.set k w)[k]? = some w := fun w => getElem?_set_of_some h
  by_cases hc : p.cursor < p.slots.length
  · cases hwork : work p.cursor with
    | none =>
      refine ⟨.lost, ?_⟩
      simp [turn, claim?, h, hc, hset, hwork, lose?, setWorker, Worker.isOver]
    | some r =>
      refine ⟨.ready, ?_⟩
      simp [turn, claim?, h, hc, hset, hwork, start?, finish?, store?, setWorker, length_putSlot]
  · refine ⟨.ended, ?_⟩
    simp [turn, claim?, h, hc, hset, setWorker, Worker.isOver]

/-- What a round does to a state with resting workers. -/
structure AfterTurns (p q : Pool ρ) (ks : List Nat) : Prop where
  resting : Resting q
  slots : q.slots.length = p.slots.length
  cursor : p.cursor ≤ q.cursor
  /-- The cursor moves on when a ready worker has its turn, and no worker stops being ready without that. -/
  moved : ∀ k, p.workers[k]? = some .ready → k ∈ ks ∨ q.workers[k]? ≠ some .ready → p.cursor < q.cursor
  /-- Once no item is left, a worker that had its turn is done, and a worker that was done still is. -/
  ended : p.slots.length ≤ p.cursor → ∀ k, k ∈ ks ∨ p.workers[k]? ≠ some .ready → q.workers[k]? ≠ some .ready

theorem AfterTurns.refl (h : Resting p) : AfterTurns p p [] :=
  ⟨h, rfl, Nat.le_refl _, fun _ hready hk => absurd hready (hk.resolve_left (by simp)),
    fun _ _ hk => hk.resolve_left (by simp)⟩

theorem afterTurns_turn (work : Nat → Option ρ) (h : Resting p) (k : Nat) : AfterTurns p (turn work p k) [k] := by
  by_cases hk : p.workers[k]? = some .ready
  · obtain ⟨w, hworkers, hcursor, hslots, hw, hdone⟩ := turn_of_ready work hk
    have hself : (turn work p k).workers[k]? = some w := hworkers ▸ getElem?_set_of_some hk
    have hother : ∀ l, l ≠ k → (turn work p k).workers[l]? = p.workers[l]? := by
      intro l hl
      rw [hworkers, List.getElem?_set_ne (Ne.symm hl)]
    refine ⟨?_, hslots, by omega, fun _ _ _ => by omega, ?_⟩
    · intro l v hv
      by_cases hl : l = k
      · subst hl
        obtain rfl := Option.some.inj (hself.symm.trans hv)
        exact hw
      · exact h l v (hother l hl ▸ hv)
    · intro hle l hl hready
      by_cases hlk : l = k
      · subst hlk
        obtain rfl := Option.some.inj (hself.symm.trans hready)
        exact absurd (hdone hle) (by simp [Worker.isOver])
      · rw [hother l hlk] at hready
        exact hl.elim (fun hl => hlk (List.mem_singleton.1 hl)) fun hl => hl hready
  · rw [turn_of_not_ready hk]
    refine ⟨h, rfl, Nat.le_refl _, ?_, ?_⟩
    · rintro l hready (hl | hl)
      · exact absurd hready (List.mem_singleton.1 hl ▸ hk)
      · exact absurd hready hl
    · rintro - l (hl | hl)
      · exact List.mem_singleton.1 hl ▸ hk
      · exact hl

theorem AfterTurns.trans {q r : Pool ρ} {ks ls : List Nat} (hp : AfterTurns p q ks) (hq : AfterTurns q r ls) :
    AfterTurns p r (ks ++ ls) := by
  have hpq := hp.cursor
  have hqr := hq.cursor
  refine ⟨hq.resting, hq.slots.trans hp.slots, by omega, ?_, ?_⟩
  · intro k hready hk
    by_cases hready' : q.workers[k]? = some .ready
    · rw [List.mem_append, or_assoc] at hk
      rcases hk with hk | hk
      · have := hp.moved k hready (.inl hk)
        omega
      · have := hq.moved k hready' hk
        omega
    · have := hp.moved k hready (.inr hready')
      omega
  · intro hle k hk
    have hslots := hp.slots
    refine hq.ended (by omega) k ?_
    rcases hk with hk | hk
    · rcases List.mem_append.1 hk with hk | hk
      · exact .inr (hp.ended hle k (.inl hk))
      · exact .inl hk
    · exact .inr (hp.ended hle k (.inr hk))

theorem afterTurns_round (work : Nat → Option ρ) (h : Resting p) (ks : List Nat) :
    AfterTurns p (ks.foldl (turn work) p) ks := by
  induction ks generalizing p with
  | nil => exact .refl h
  | cons k ks ih => exact (afterTurns_turn work h k).trans (ih (afterTurns_turn work h k).resting)

theorem Resting.isOver_iff (h : Resting p) : p.isOver = true ↔ ∀ k : Nat, p.workers[k]? ≠ some .ready := by
  unfold isOver
  rw [List.all_eq_true]
  refine ⟨fun hover k hk => ?_, fun hready w hw => ?_⟩
  · exact absurd (hover _ (List.mem_of_getElem? hk)) (by simp [Worker.isOver])
  · obtain ⟨k, hk⟩ := List.mem_iff_getElem?.1 hw
    exact (h k w hk).resolve_left fun hr => hready k (hr ▸ hk)

theorem run_of_isOver (h : p.isOver = true) (fuel : Nat) : run work fuel p = p := by
  cases fuel with
  | zero => rfl
  | succ fuel => rw [run, if_pos h]

/-- Rounds come to an end: one for each item that is left, and one in which the workers find that none is. -/
theorem isOver_run (work : Nat → Option ρ) (h : Resting p) {fuel : Nat} (hfuel : p.slots.length - p.cursor < fuel) :
    (run work fuel p).isOver = true := by
  induction fuel generalizing p with
  | zero => omega
  | succ fuel ih =>
    unfold run
    by_cases hover : p.isOver = true
    · rwa [if_pos hover]
    · rw [if_neg hover]
      have hafter := afterTurns_round work h (List.range p.workers.length)
      obtain ⟨k, hk⟩ : ∃ k : Nat, p.workers[k]? = some .ready := by
        by_contra hnone
        exact hover (h.isOver_iff.2 fun k hk => hnone ⟨k, hk⟩)
      have hturn : ∀ k : Nat, p.workers[k]? = some .ready → k ∈ List.range p.workers.length := by
        intro k hk
        exact List.mem_range.2 (List.getElem?_eq_some_iff.1 hk).1
      by_cases hle : p.slots.length ≤ p.cursor
      · -- no item is left, so that this round is the last
        have hdone : ((List.range p.workers.length).foldl (turn work) p).isOver = true := by
          refine hafter.resting.isOver_iff.2 ?_
          intro k
          refine hafter.ended hle k ?_
          by_cases hk : p.workers[k]? = some .ready
          · exact .inl (hturn k hk)
          · exact .inr hk
        rwa [run_of_isOver hdone]
      · have hmoved := hafter.moved k hk (.inl (hturn k hk))
        have hslots := hafter.slots
        exact ih hafter.resting (by omega)

/-! ### The result -/

variable {α : Type v} {list : List α} {f : α → Option ρ}

theorem resting_start (workers items : Nat) : Resting (start workers items : Pool ρ) := by
  intro k w hw
  rw [start, List.getElem?_replicate] at hw
  split at hw
  · exact .inl (Option.some.inj hw).symm
  · cases hw

/-- The turns of `map` end in the slots that every order of steps ends in. -/
theorem map_eq_ok {size startable workers : Nat} (hw : 0 < workers)
    (h : min (min size list.length) startable = workers) :
    map size startable list f = .ok (kept workers (list.map f)) := by
  have hne : list.isEmpty = false := by
    cases list with
    | nil => simp at h; omega
    | cons => rfl
  have hstart : ∃ es, Run (Follows fun i => list[i]?.bind f) workers list.length es (start workers list.length) :=
    ⟨[], .start⟩
  obtain ⟨es, hrun⟩ := exists_run_run hstart (list.length + 2)
  have hover : (run (fun i => list[i]?.bind f) (list.length + 2) (start workers list.length)).isOver = true := by
    refine isOver_run _ (resting_start workers list.length) ?_
    simp only [start, List.length_replicate]
    omega
  have hslots := slots_of_isOver hw hrun hover
  simp [map, hne, h, Nat.pos_iff_ne_zero.1 hw, hslots]

/-- A pool ends in the same slots whatever the order of its steps: those before the item that takes the last worker hold
their results, the others nothing.  No item is claimed, worked on or stored twice, the end is always reached, and it is
the one that `map` returns. -/
theorem schedule_independent (list : List α) (f : α → Option ρ) {workers : Nat} (hw : 0 < workers) :
    (∀ es p, Run (Follows fun i => list[i]?.bind f) workers list.length es p →
      es.Nodup ∧
      (p.isOver = true → p.slots = kept workers (list.map f)) ∧
      (p.isOver = false → ∃ k fs q, Step (Follows fun i => list[i]?.bind f) p k fs q) ∧
      ∀ k fs q, Step (Follows fun i => list[i]?.bind f) p k fs q → q.rank < p.rank) ∧
    ∀ size startable, min (min size list.length) startable = workers →
      map size startable list f = .ok (kept workers (list.map f)) := by
  refine ⟨fun es p h => ⟨h.tidy.nodup, slots_of_isOver hw h, ?_, fun k fs q hs => hs.rank_lt⟩, fun _ _ => map_eq_ok hw⟩
  exact exists_step fun i => ⟨_, rfl⟩

/-- Two workers, with a fifth item that neither of them lives to claim. -/
theorem schedule_independent_two_losses :
    (∃ es p, Run (Follows fun i => [some 1, none, some 2, none, some 3][i]?.bind id) 2 5 es p ∧ p.isOver = true ∧
      p.slots = [some 1, none, some 2, none, none]) ∧
    map 2 8 [some 1, none, some 2, none, some 3] id = .ok [some 1, none, some 2, none, none] := by
  have h := schedule_independent [some 1, none, some 2, none, some 3] id Nat.zero_lt_two
  have hstart : ∃ es, Run (Follows fun i => [some 1, none, some 2, none, some 3][i]?.bind id) 2 5 es (start 2 5) :=
    ⟨[], .start⟩
  obtain ⟨es, hrun⟩ := exists_run_run hstart 7
  exact ⟨⟨es, _, hrun, by decide +kernel, (h.1 es _ hrun).2.1 (by decide +kernel)⟩, h.2 2 8 rfl⟩

end Pool

end ScriptRunner
