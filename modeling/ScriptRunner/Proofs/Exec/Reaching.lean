import Mathlib.Data.List.Induction
import ScriptRunner.Exec.Live

/-!
# Scripts that an interrupt reaches

Any number of calls share one set of live groups.  A call enters its child when it starts it, meets the end of the
child when the child has exited, and takes the group out afterwards.  Other calls and interrupts may come between any
two of these steps, and the system may give a new child any id that no child holds whose end has not been met
(`Live.Step`, `Live.Run`).

After an interrupt nothing is started.  A child whose end has not been met is signalled, unless a call has taken its id
out since it was started (`Live.reaches_iff`): the id was that of an earlier child, whose call had met the end of it but
had not taken it out yet.  This does not happen as long as no id is given away again before it has been taken out
(`Live.reaches_of_fresh`).
-/

namespace ScriptRunner

namespace Live

/-- How far a call has come with its child. -/
inductive Stage where
  | waiting
  | running (id : Nat)
  | exited (id : Nat)
  /-- The end has been met, but the group has not been taken out. -/
  | reaped (id : Nat)
  | over
  deriving DecidableEq, Repr

/-- The id of a child whose end has not been met. -/
def Stage.child? : Stage → Option Nat
  | .running id => some id
  | .exited id => some id
  | _ => none

/-- The id that a call has still to take out. -/
def Stage.entered? : Stage → Option Nat
  | .running id => some id
  | .exited id => some id
  | .reaped id => some id
  | _ => none

/-- What happens to a call, or to all of them. -/
inductive Event where
  | spawned (call id : Nat)
  /-- The run is stopping. -/
  | refused (call : Nat)
  /-- The system starts no process. -/
  | failed (call : Nat)
  | exited (call id : Nat)
  | reaped (call id : Nat)
  | released (call id : Nat)
  | interrupted (groups : List Nat)
  deriving DecidableEq, Repr

/-- The live groups with the calls that share them. -/
structure Calls where
  live : Live
  stages : List Stage
  deriving DecidableEq, Repr

/-- One step of one call, or an interrupt. -/
inductive Step (c : Calls) : Event → Calls → Prop
  | spawn {k id : Nat} {live : Live} (hk : c.stages[k]? = some .waiting) (hfree : ∀ s ∈ c.stages, s.child? ≠ some id)
    (h : c.live.spawn? id = some live) : Step c (.spawned k id) ⟨live, c.stages.set k (.running id)⟩
  | refuse {k : Nat} (hk : c.stages[k]? = some .waiting) (h : c.live.stopping) :
    Step c (.refused k) ⟨c.live, c.stages.set k .over⟩
  | fail {k : Nat} (hk : c.stages[k]? = some .waiting) (h : c.live.stopping = false) :
    Step c (.failed k) ⟨c.live, c.stages.set k .over⟩
  | exit {k id : Nat} (hk : c.stages[k]? = some (.running id)) :
    Step c (.exited k id) ⟨c.live, c.stages.set k (.exited id)⟩
  | reap {k id : Nat} (hk : c.stages[k]? = some (.exited id)) :
    Step c (.reaped k id) ⟨c.live, c.stages.set k (.reaped id)⟩
  | release {k id : Nat} (hk : c.stages[k]? = some (.reaped id)) :
    Step c (.released k id) ⟨c.live.release id, c.stages.set k .over⟩
  | interrupt : Step c (.interrupted c.live.interrupt.2) ⟨c.live.interrupt.1, c.stages⟩

/-- The states that steps of `n` calls and interrupts lead to, in any order, and the events on the way. -/
inductive Run (n : Nat) : List Event → Calls → Prop
  | start : Run n [] ⟨{}, List.replicate n .waiting⟩
  | step {es : List Event} {c d : Calls} {e : Event} (h : Run n es c) (hs : Step c e d) : Run n (es ++ [e]) d

variable {n k id : Nat} {c d : Calls} {e : Event} {es before after : List Event} {groups : List Nat}

theorem Run.concat_iff : Run n (es ++ [e]) d ↔ ∃ c, Run n es c ∧ Step c e d := by
  constructor
  · intro h
    generalize hes : es ++ [e] = fs at h
    cases h with
    | start => simp at hes
    | step h hs =>
      obtain ⟨rfl, he⟩ := List.append_inj' hes rfl
      obtain rfl := List.singleton_inj.1 he
      exact ⟨_, h, hs⟩
  · rintro ⟨c, h, hs⟩
    exact h.step hs

/-- A run can be cut at any of its events. -/
theorem Run.exists_step (h : Run n (before ++ e :: after) d) : ∃ b c, Run n before b ∧ Step b e c := by
  induction after using List.reverseRecOn generalizing d with
  | nil =>
    obtain ⟨b, hb, hs⟩ := Run.concat_iff.1 h
    exact ⟨b, d, hb, hs⟩
  | append_singleton after f ih =>
    rw [← List.cons_append, ← List.append_assoc] at h
    obtain ⟨c, hc, -⟩ := Run.concat_iff.1 h
    exact ih hc

/-! ### Live groups -/

theorem spawn?_eq_some_iff {l l' : Live} : l.spawn? id = some l' ↔
    l.stopping = false ∧ l' = { l with groups := if l.groups.contains id then l.groups else l.groups ++ [id] } := by
  unfold spawn?
  cases l.stopping <;> simp [eq_comm]

theorem mem_groups_of_spawn? {l l' : Live} (h : l.spawn? id = some l') (g : Nat) :
    g ∈ l'.groups ↔ g = id ∨ g ∈ l.groups := by
  obtain ⟨-, rfl⟩ := spawn?_eq_some_iff.1 h
  by_cases hid : id ∈ l.groups
  · simp only [List.contains_iff_mem, hid, if_true]
    exact ⟨.inr, fun h => h.elim (fun h => h ▸ hid) fun h => h⟩
  · simp [hid, or_comm]

theorem mem_groups_release {l : Live} {g : Nat} : g ∈ (l.release id).groups ↔ g ≠ id ∧ g ∈ l.groups := by
  simp [release, and_comm]

theorem Step.mem_groups_iff (h : Step c e d) :
    id ∈ d.live.groups ↔ (∃ k, e = .spawned k id) ∨ id ∈ c.live.groups ∧ ∀ k, e ≠ .released k id := by
  cases h with
  | spawn hk hfree h => simp [mem_groups_of_spawn? h, eq_comm]
  | release hk => simp [mem_groups_release, eq_comm, and_comm]
  | interrupt => simp [Live.interrupt]
  | refuse | fail | exit | reap => simp

theorem Step.stopping (h : Step c e d) (hc : c.live.stopping) : d.live.stopping ∧ ∀ k id, e ≠ .spawned k id := by
  cases h with
  | spawn hk hfree h => simp [(spawn?_eq_some_iff.1 h).1] at hc
  | refuse | fail | exit | reap | release => exact ⟨hc, nofun⟩
  | interrupt => exact ⟨rfl, nofun⟩

/-! ### Stages -/

def Event.call? : Event → Option Nat
  | .spawned k _ => some k
  | .refused k => some k
  | .failed k => some k
  | .exited k _ => some k
  | .reaped k _ => some k
  | .released k _ => some k
  | .interrupted _ => none

/-- What an event makes of the stage of call `k`. -/
inductive Moves (k : Nat) : Stage → Event → Stage → Prop
  | spawn (id : Nat) : Moves k .waiting (.spawned k id) (.running id)
  | refuse : Moves k .waiting (.refused k) .over
  | fail : Moves k .waiting (.failed k) .over
  | exit (id : Nat) : Moves k (.running id) (.exited k id) (.exited id)
  | reap (id : Nat) : Moves k (.exited id) (.reaped k id) (.reaped id)
  | release (id : Nat) : Moves k (.reaped id) (.released k id) .over
  | stay {s : Stage} {e : Event} (h : e.call? ≠ some k) : Moves k s e s

variable {s s' : Stage}

theorem Moves.set {j : Nat} {t t' : Stage} (hm : Moves j t e t') (he : e.call? = some j) (hj : c.stages[j]? = some t)
    (hs : c.stages[k]? = some s) : ∃ s', (c.stages.set j t')[k]? = some s' ∧ Moves k s e s' := by
  by_cases hk : j = k
  · subst hk
    obtain rfl := Option.some.inj (hj.symm.trans hs)
    exact ⟨t', List.getElem?_set_self (List.getElem?_eq_some_iff.1 hj).1, hm⟩
  · exact ⟨s, by rw [List.getElem?_set_ne hk, hs], .stay (by simpa [he] using hk)⟩

theorem Step.moves (h : Step c e d) (hs : c.stages[k]? = some s) : ∃ s', d.stages[k]? = some s' ∧ Moves k s e s' := by
  cases h with
  | spawn hk hfree h => exact (Moves.spawn _).set rfl hk hs
  | refuse hk h => exact Moves.refuse.set rfl hk hs
  | fail hk h => exact Moves.fail.set rfl hk hs
  | exit hk => exact (Moves.exit _).set rfl hk hs
  | reap hk => exact (Moves.reap _).set rfl hk hs
  | release hk => exact (Moves.release _).set rfl hk hs
  | interrupt => exact ⟨s, hs, .stay nofun⟩

theorem Step.length_stages (h : Step c e d) : d.stages.length = c.stages.length := by
  cases h with
  | interrupt => rfl
  | spawn | refuse | fail | exit | reap | release => exact List.length_set

theorem Step.moves_to (h : Step c e d) (hs' : d.stages[k]? = some s') :
    ∃ s, c.stages[k]? = some s ∧ Moves k s e s' := by
  have hk : k < c.stages.length := h.length_stages ▸ (List.getElem?_eq_some_iff.1 hs').1
  obtain ⟨t, ht, hm⟩ := h.moves (List.getElem?_eq_getElem hk)
  obtain rfl := Option.some.inj (ht.symm.trans hs')
  exact ⟨_, List.getElem?_eq_getElem hk, hm⟩

theorem Run.call?_ne_of_waiting (h : Run n es c) (hk : c.stages[k]? = some .waiting) : ∀ e ∈ es, e.call? ≠ some k := by
  -- no event leads back to waiting
  induction h with
  | start => exact nofun
  | step h hs ih =>
    obtain ⟨s, hs, hm⟩ := hs.moves_to hk
    cases hm with
    | stay he =>
      rintro e hmem
      obtain hmem | hmem := List.mem_append.1 hmem
      · exact ih hs e hmem
      · exact List.mem_singleton.1 hmem ▸ he

/-- A child holds its id until its end has been met. -/
theorem Run.child (h : Run n es c) (hspawned : .spawned k id ∈ es) (hreaped : .reaped k id ∉ es) :
    ∃ s, c.stages[k]? = some s ∧ s.child? = some id := by
  induction h with
  | start => exact nomatch hspawned
  | @step es c d e h hs ih =>
    obtain hmem | hmem := List.mem_append.1 hspawned
    · obtain ⟨s, hk, hid⟩ := ih hmem fun hr => hreaped (List.mem_append_left _ hr)
      obtain ⟨s', hs', hm⟩ := hs.moves hk
      refine ⟨s', hs', ?_⟩
      cases hm with
      | exit | stay => exact hid
      | reap =>
        obtain rfl := Option.some.inj hid
        simp at hreaped
      | spawn | refuse | fail | release => exact nomatch hid
    · obtain rfl := List.mem_singleton.1 hmem
      cases hs with
      | spawn hk => exact ⟨_, List.getElem?_set_self (List.getElem?_eq_some_iff.1 hk).1, rfl⟩

/-- No child gets an id that another child holds. -/
theorem Run.not_spawned {j : Nat} (h : Run n es c) (hs : Step c (.spawned j id) d) (hspawned : .spawned k id ∈ es)
    (hreaped : .reaped k id ∉ es) : False := by
  obtain ⟨s, hk, hid⟩ := h.child hspawned hreaped
  cases hs with
  | spawn _ hfree => exact hfree s (List.mem_of_getElem? hk) hid

/-- An id that a call has still to take out is that of its child. -/
theorem Run.entered (h : Run n es c) (hk : c.stages[k]? = some s) (hid : s.entered? = some id) :
    .spawned k id ∈ es ∧ .released k id ∉ es := by
  induction h generalizing s with
  | start =>
    obtain rfl := List.eq_of_mem_replicate (List.mem_of_getElem? hk)
    exact nomatch hid
  | @step es c d e h hs ih =>
    obtain ⟨t, ht, hm⟩ := hs.moves_to hk
    have hbefore : t.entered? = some id → e ≠ .released k id →
        .spawned k id ∈ es ++ [e] ∧ .released k id ∉ es ++ [e] := by
      intro hid he
      obtain ⟨hspawned, hreleased⟩ := ih ht hid
      exact ⟨List.mem_append_left _ hspawned, by simp [hreleased, he.symm]⟩
    cases hm with
    | spawn =>
      obtain rfl := Option.some.inj hid
      exact ⟨by simp, by simpa using fun hmem => h.call?_ne_of_waiting ht _ hmem rfl⟩
    | exit | reap => exact hbefore hid nofun
    | stay he => exact hbefore hid fun h => he (h ▸ rfl)
    | refuse | fail | release => exact nomatch hid

/-! ### Groups that are entered -/

theorem Run.call?_ne_of_spawned (h : Run n (before ++ .spawned k id :: after) c) : ∀ e ∈ before, e.call? ≠ some k := by
  obtain ⟨b, d, hb, hs⟩ := h.exists_step
  cases hs with
  | spawn hk => exact hb.call?_ne_of_waiting hk

/-- While its end has not been met, a child is entered if no call has taken out its id since it was started. -/
theorem Run.mem_groups_iff (h : Run n (before ++ .spawned k id :: after) c) (hreaped : .reaped k id ∉ after) :
    id ∈ c.live.groups ↔ ∀ j, .released j id ∉ after := by
  induction after using List.reverseRecOn generalizing c with
  | nil =>
    obtain ⟨b, -, hs⟩ := Run.concat_iff.1 h
    simp [hs.mem_groups_iff]
  | append_singleton after e ih =>
    rw [← List.cons_append, ← List.append_assoc] at h
    obtain ⟨b, hb, hs⟩ := Run.concat_iff.1 h
    have hafter : .reaped k id ∉ after := fun hr => hreaped (List.mem_append_left _ hr)
    have hunmet : .reaped k id ∉ before ++ .spawned k id :: after := by
      simp only [List.mem_append, List.mem_cons, reduceCtorEq, false_or, not_or]
      exact ⟨fun hr => hb.call?_ne_of_spawned _ hr rfl, hafter⟩
    have hnew : ¬ ∃ j, e = .spawned j id := by
      rintro ⟨j, rfl⟩
      exact hb.not_spawned hs (by simp) hunmet
    rw [hs.mem_groups_iff, ih hb hafter]
    simp only [hnew, false_or, List.mem_append, List.mem_singleton, not_or, forall_and, ne_eq, eq_comm]

theorem Run.exists_of_mem_groups (h : Run n es c) (hid : id ∈ c.live.groups) :
    ∃ k, .spawned k id ∈ es ∧ .released k id ∉ es := by
  induction h with
  | start => exact nomatch hid
  | @step es c d e h hs ih =>
    obtain ⟨k, rfl⟩ | ⟨hid, hreleased⟩ := hs.mem_groups_iff.1 hid
    · cases hs with
      | spawn hk => exact ⟨k, by simp, by simpa using fun hmem => h.call?_ne_of_waiting hk _ hmem rfl⟩
    · obtain ⟨k, hspawned, hk⟩ := ih hid
      exact ⟨k, List.mem_append_left _ hspawned, by simp [hk, (hreleased k).symm]⟩

/-! ### Interrupts -/

theorem Run.groups_of_interrupted (h : Run n (before ++ .interrupted groups :: after) c) :
    ∃ b, Run n before b ∧ groups = b.live.groups := by
  obtain ⟨b, d, hb, hs⟩ := h.exists_step
  cases hs with
  | interrupt => exact ⟨b, hb, rfl⟩

theorem Run.not_spawned_after (h : Run n (before ++ .interrupted groups :: after) c) :
    c.live.stopping ∧ ∀ k id, .spawned k id ∉ after := by
  induction after using List.reverseRecOn generalizing c with
  | nil =>
    obtain ⟨b, -, hs⟩ := Run.concat_iff.1 h
    cases hs with
    | interrupt => exact ⟨rfl, by simp⟩
  | append_singleton after e ih =>
    rw [← List.cons_append, ← List.append_assoc] at h
    obtain ⟨b, hb, hs⟩ := Run.concat_iff.1 h
    obtain ⟨hstopping, hafter⟩ := ih hb
    obtain ⟨hstopping, he⟩ := hs.stopping hstopping
    exact ⟨hstopping, fun k id => by simp [hafter, (he k id).symm]⟩

/-- After an interrupt nothing is started.  An interrupt signals a child whose end has not been met if and only if no
call has taken out its id since it was started, and it signals only ids that some call has still to take out. -/
theorem reaches_iff (h : Run n (before ++ .interrupted groups :: after) c) :
    (∀ k id, .spawned k id ∉ after) ∧
      (∀ b a k id, before = b ++ .spawned k id :: a → .reaped k id ∉ a →
        (id ∈ groups ↔ ∀ j, .released j id ∉ a)) ∧
      ∀ id ∈ groups, ∃ k, .spawned k id ∈ before ∧ .released k id ∉ before := by
  obtain ⟨d, hd, rfl⟩ := h.groups_of_interrupted
  refine ⟨h.not_spawned_after.2, fun b a k id hbefore hreaped => ?_, fun id hid => hd.exists_of_mem_groups hid⟩
  rw [hbefore] at hd
  exact hd.mem_groups_iff hreaped

/-- The second call's child has the id of the first call's child, which had been taken out before. -/
theorem reaches_iff_reused :
    let before : List Event := [.spawned 0 7, .exited 0 7, .reaped 0 7, .released 0 7, .spawned 1 7]
    Run 2 (before ++ .interrupted [7] :: [.exited 1 7]) ⟨⟨true, [7]⟩, [.over, .exited 7]⟩ ∧
      (7 ∈ [7] ↔ ∀ j, Event.released j 7 ∉ ([] : List Event)) := by
  intro before
  have h : Run 2 (before ++ .interrupted [7] :: [.exited 1 7]) ⟨⟨true, [7]⟩, [.over, .exited 7]⟩ :=
    ((((((Run.start.step (.spawn rfl (by decide) rfl)).step (.exit rfl)).step (.reap rfl)).step (.release rfl)).step
      (.spawn rfl (by decide) rfl)).step .interrupt).step (.exit rfl)
  exact ⟨h, (reaches_iff h).2.1 [.spawned 0 7, .exited 0 7, .reaped 0 7, .released 0 7] [] 1 7 rfl nofun⟩

/-- The first call takes out the id of the second call's child, which had been that of its own. -/
theorem not_reaches_all : ¬ ∀ (n : Nat) (before after : List Event) (groups : List Nat) (c : Calls),
    Run n (before ++ .interrupted groups :: after) c →
      (∀ k id, .spawned k id ∉ after) ∧
        ∀ k id, .spawned k id ∈ before → .reaped k id ∉ before → id ∈ groups := by
  intro hall
  have h : Run 2 ([.spawned 0 7, .exited 0 7, .reaped 0 7, .spawned 1 7, .released 0 7] ++ .interrupted [] :: [])
      ⟨⟨true, []⟩, [.over, .running 7]⟩ :=
    (((((Run.start.step (.spawn rfl (by decide) rfl)).step (.exit rfl)).step (.reap rfl)).step
      (.spawn rfl (by decide) rfl)).step (.release rfl)).step .interrupt
  exact nomatch (hall 2 _ _ _ _ h).2 1 7 (by decide) (by decide)

/-- No id is given away again before it has been taken out. -/
def Fresh (es : List Event) : Prop :=
  ∀ before after k id, es = before ++ .spawned k id :: after → ∀ j, .spawned j id ∈ before → .released j id ∈ before

/-- Then an interrupt signals every child whose end has not been met. -/
theorem reaches_of_fresh (h : Run n (before ++ .interrupted groups :: after) c) (hfresh : Fresh before)
    (hspawned : .spawned k id ∈ before) (hreaped : .reaped k id ∉ before) : id ∈ groups := by
  obtain ⟨d, hd, rfl⟩ := h.groups_of_interrupted
  obtain ⟨b, a, rfl⟩ := List.append_of_mem hspawned
  refine (hd.mem_groups_iff fun hr => hreaped (by simp [hr])).2 fun j hj => ?_
  obtain ⟨a, a', rfl⟩ := List.append_of_mem hj
  rw [← List.cons_append, ← List.append_assoc] at hd hreaped
  have hunmet : .reaped k id ∉ b ++ .spawned k id :: a := fun hr => hreaped (List.mem_append_left _ hr)
  -- a call that takes out the id has started a child with it, before or after this one was started
  obtain ⟨m, _, hm, hs⟩ := hd.exists_step
  cases hs with
  | release hstage =>
    obtain ⟨hstarted, hreleased⟩ := hm.entered hstage rfl
    obtain hbefore | hafter := List.mem_append.1 hstarted
    · exact hreleased (List.mem_append_left _ (hfresh b _ k id rfl j hbefore))
    obtain hself | hafter := List.mem_cons.1 hafter
    · obtain ⟨rfl, -⟩ := Event.spawned.inj hself
      obtain ⟨s, hk, hid⟩ := hm.child (by simp) hunmet
      obtain rfl := Option.some.inj (hstage.symm.trans hk)
      exact nomatch hid
    · obtain ⟨x, y, rfl⟩ := List.append_of_mem hafter
      rw [← List.cons_append, ← List.append_assoc] at hm hunmet
      obtain ⟨m, _, hm, hs⟩ := hm.exists_step
      exact hm.not_spawned (k := k) hs (by simp) fun hr => hunmet (List.mem_append_left _ hr)

end Live

end ScriptRunner
