import ScriptRunner.Proofs.Exec.PassRun

/-!
# Driven passes

A host drives a pass by its moves alone, so that what holds of all runs holds of a driven pass.  What each move and each
act of the host keeps is kept by the whole drive (`Keeps.drive`); with a host that never takes back a stop, the pass
that is driven has run under a stop only if the world is stopping at its end (`exists_run_of_latched`).  While a group
runs, a round is a turn of every worker, one after another (`Drive.turns`).
-/

namespace ScriptRunner

/-- A host that never takes back a stop. -/
structure Host.Latched {σ τ : Type} (host : Host σ τ) : Prop where
  tell : ∀ ws x, host.stopping x = true → host.stopping (host.tell ws x) = true
  table : ∀ m x, host.stopping x = true → host.stopping (host.table m x).2 = true
  begin : ∀ request x, host.stopping x = true → host.stopping (host.begin request x).2 = true
  reply : ∀ call x, host.stopping x = true → host.stopping (host.reply? call x).2 = true
  wait : ∀ x, host.stopping x = true → host.stopping (host.wait x) = true

namespace Pass

variable {σ τ : Type} {host : Host σ τ} {s : RunSettings} {Q : Pass → σ → Prop} {d : Drive σ τ} {plan : Plan}
  {group : List Member} {pool : Pool ScriptResult}

/-- A property of a pass and its world that every move of the pass and every act of the host keeps.  At a boundary the
pass is told whether the world is stopping. -/
structure Keeps (host : Host σ τ) (s : RunSettings) (Q : Pass → σ → Prop) : Prop where
  move : ∀ {p q x move ws}, p.move? s move = some (q, ws) →
    (∀ stopping started elapsed, move = .boundary stopping started elapsed → stopping = host.stopping x) →
    Q p x → Q q (host.tell ws x)
  table : ∀ {p x} m, Q p x → Q p (host.table m x).2
  begin : ∀ {p x} request, Q p x → Q p (host.begin request x).2
  reply : ∀ {p x} call, Q p x → Q p (host.reply? call x).2
  wait : ∀ {p x}, Q p x → Q p (host.wait x)

/-- The property holds of a drive. -/
def Drive.Has (Q : Pass → σ → Prop) (d : Drive σ τ) : Prop := Q d.pass d.world

theorem Keeps.make (hk : Keeps host s Q) (h : d.Has Q) {move : Move}
    (hm : ∀ stopping started elapsed, move = .boundary stopping started elapsed → stopping = host.stopping d.world) :
    (d.make host s move).Has Q := by
  unfold Drive.make
  split
  · exact h
  · exact hk.move ‹_› hm h

theorem Keeps.advance (hk : Keeps host s Q) (h : d.Has Q) (k : Nat) : (d.advance host s k).1.Has Q := by
  unfold Drive.advance
  split
  · split
    · exact hk.make h nofun
    · split
      · exact h
      · rename_i m _
        have htable : Drive.Has Q { d with world := (host.table m d.world).2 } := hk.table m h
        have hstart : Drive.Has Q (Drive.make host s _ (.start k (host.table m d.world).1)) := hk.make htable nofun
        dsimp only
        split
        · exact hstart
        · exact hk.begin _ hstart
    · split
      · exact h
      · rename_i call _
        have hreply : Drive.Has Q { d with world := (host.reply? call d.world).2 } := hk.reply call h
        dsimp only
        split
        · exact hreply
        · refine hk.make ?_ nofun
          exact hreply
    · exact hk.make h nofun
    · exact h
  · exact h

/-- The turns of some workers, one after another, and whether anybody moved. -/
def Drive.turns (host : Host σ τ) (s : RunSettings) (d : Drive σ τ) (ks : List Nat) : Drive σ τ × Bool :=
  ks.foldl (fun acc k => ((acc.1.advance host s k).1, acc.2 || (acc.1.advance host s k).2)) (d, false)

theorem Drive.turns_snoc (d : Drive σ τ) (ks : List Nat) (k : Nat) : d.turns host s (ks ++ [k]) =
    (((d.turns host s ks).1.advance host s k).1,
      (d.turns host s ks).2 || ((d.turns host s ks).1.advance host s k).2) := by
  simp only [turns, List.foldl_append, List.foldl_cons, List.foldl_nil]

/-- While a group runs, a round is a turn of every worker. -/
theorem Drive.round_of_running (hp : d.pass.phase = .running group pool) (hover : pool.isOver = false) :
    d.round host s =
      let e := d.turns host s (List.range pool.workers.length)
      if e.2 then e.1 else { e.1 with world := host.wait e.1.world } := by
  simp only [round, hp, hover]
  rfl

theorem Keeps.turns (hk : Keeps host s Q) (h : d.Has Q) (ks : List Nat) : (d.turns host s ks).1.Has Q := by
  induction ks using List.reverseRecOn with
  | nil => exact h
  | append_singleton ks k ih =>
    rw [Drive.turns_snoc]
    exact hk.advance ih k

theorem Keeps.round (hk : Keeps host s Q) (h : d.Has Q) : (d.round host s).Has Q := by
  cases hp : d.pass.phase with
  | between =>
    simp only [Drive.round, hp]
    exact hk.make h fun stopping started elapsed hmove => (Move.boundary.inj hmove).1.symm
  | running group pool =>
    cases hover : pool.isOver with
    | true =>
      simp only [Drive.round, hp, hover, if_true]
      exact hk.make h nofun
    | false =>
      have hturns := hk.turns h (List.range pool.workers.length)
      rw [Drive.round_of_running hp hover]
      dsimp only
      split
      · exact hturns
      · exact hk.wait hturns
  | finished =>
    simp only [Drive.round, hp]
    exact h

theorem Drive.round_of_finished (hp : d.pass.phase = .finished) : d.round host s = d := by
  simp only [round, hp]

/-- One round more. -/
theorem Drive.run_succ (fuel : Nat) (d : Drive σ τ) :
    Drive.run host s (fuel + 1) d = (Drive.run host s fuel d).round host s := by
  induction fuel generalizing d with
  | zero =>
    unfold Drive.run
    split
    · exact (round_of_finished ‹_›).symm
    · rfl
  | succ fuel ih =>
    unfold Drive.run
    split
    · exact (round_of_finished ‹_›).symm
    · exact ih _

theorem Keeps.drive (hk : Keeps host s Q) (h : d.Has Q) (fuel : Nat) : (Drive.run host s fuel d).Has Q := by
  induction fuel with
  | zero => exact h
  | succ fuel ih =>
    rw [Drive.run_succ]
    exact hk.round ih

/-- Under a host that never takes back a stop, a driven pass goes through one of its runs, and if it has met a stop then
the world is stopping in the end. -/
theorem exists_run_of_latched (hl : host.Latched) (s : RunSettings) (fuel : Nat) (plan : Plan) (world : σ) :
    ∃ moves calls words, Run s plan moves calls words (run host s fuel plan world).pass ∧
      ∀ started elapsed, .boundary true started elapsed ∈ moves →
        host.stopping (run host s fuel plan world).world = true := by
  have hk : Keeps host s fun p x => ∃ moves calls words, Run s plan moves calls words p ∧
      ∀ started elapsed, .boundary true started elapsed ∈ moves → host.stopping x = true := by
    refine ⟨?_, fun m => ?_, fun request => ?_, fun call => ?_, ?_⟩
    · rintro p q x move ws hm hstop ⟨moves, calls, words, hrun, hmoves⟩
      refine ⟨_, _, _, hrun.move hm, fun started elapsed hmem => hl.tell ws x ?_⟩
      rcases List.mem_append.1 hmem with hmem | hmem
      · exact hmoves started elapsed hmem
      · exact (hstop true started elapsed (List.mem_singleton.1 hmem).symm).symm
    · exact fun ⟨moves, calls, words, hrun, hmoves⟩ =>
        ⟨moves, calls, words, hrun, fun started elapsed hmem => hl.table m _ (hmoves started elapsed hmem)⟩
    · exact fun ⟨moves, calls, words, hrun, hmoves⟩ =>
        ⟨moves, calls, words, hrun, fun started elapsed hmem => hl.begin request _ (hmoves started elapsed hmem)⟩
    · exact fun ⟨moves, calls, words, hrun, hmoves⟩ =>
        ⟨moves, calls, words, hrun, fun started elapsed hmem => hl.reply call _ (hmoves started elapsed hmem)⟩
    · exact fun ⟨moves, calls, words, hrun, hmoves⟩ =>
        ⟨moves, calls, words, hrun, fun started elapsed hmem => hl.wait _ (hmoves started elapsed hmem)⟩
  exact hk.drive ⟨[], [], [], .start, nofun⟩ fuel

end Pass

end ScriptRunner
