import Mathlib.Data.List.Range
import ScriptRunner.Proofs.Exec.PoolSteps

/-!
# Slots of a pool

The work on an item gives a result or takes the worker with it.  Whatever the order of the steps, a pool of `w` workers
gets as far as the `w`-th item that takes a worker (`reach`), and the slots of the items before that one hold the
results (`kept`).

The invariant (`Tally`) counts the workers that are lost or have an item that will take them: there are as many as such
items below the cursor.  A worker that can claim is not one of them, so the item at the cursor is within reach.
-/

namespace ScriptRunner

universe u v

variable {ρ : Type u}

namespace Pool

/-! ### How far a pool gets -/

/-- The positions without a result, in ascending order. -/
def losses (results : List (Option ρ)) : List Nat :=
  (List.range results.length).filter fun i => results[i]?.join.isNone

/-- The position of the `w`-th loss, or the number of items when there are fewer. -/
def reach (w : Nat) (results : List (Option ρ)) : Nat := (losses results)[w - 1]?.getD results.length

/-- The results before the `w`-th loss. -/
def kept (w : Nat) (results : List (Option ρ)) : List (Option ρ) :=
  results.mapIdx fun i r => if i < reach w results then r else none

/-- The number of items below `i` that take their worker with them. -/
def lossesBelow (work : Nat → Option ρ) (i : Nat) : Nat := (List.range i).countP fun j => (work j).isNone

variable {work : Nat → Option ρ}

theorem lossesBelow_succ (i : Nat) :
    lossesBelow work (i + 1) = lossesBelow work i + if (work i).isNone then 1 else 0 := by
  simp [lossesBelow, List.range_succ]

theorem lossesBelow_mono {i j : Nat} (h : i ≤ j) : lossesBelow work i ≤ lossesBelow work j :=
  (List.range_sublist.2 h).countP_le

/-- The position of a loss has as many losses below it as its place in the list says. -/
private theorem lossesBelow_of_getElem? {n j k : Nat}
    (h : ((List.range n).filter fun i => (work i).isNone)[j]? = some k) :
    lossesBelow work k = j ∧ lossesBelow work (k + 1) = j + 1 ∧ k < n := by
  induction n with
  | zero => simp at h
  | succ n ih =>
    -- the position is one of the losses before `n`, or it is `n` itself
    rw [List.range_succ, List.filter_append, List.getElem?_append] at h
    split at h
    · obtain ⟨hk, hk', hlt⟩ := ih h
      exact ⟨hk, hk', Nat.lt_succ_of_lt hlt⟩
    · rename_i hj
      by_cases hn : (work n).isNone = true
      · rw [List.filter_singleton, hn, cond_true, List.getElem?_singleton] at h
        split at h
        · rename_i hj'
          obtain rfl := Option.some.inj h
          have hlen : lossesBelow work n = j := by
            rw [lossesBelow, List.countP_eq_length_filter]
            omega
          exact ⟨hlen, by rw [lossesBelow_succ, hlen, if_pos hn], Nat.lt_succ_self n⟩
        · cases h
      · simp [hn] at h

/-- An item is within reach of `w` workers when fewer than `w` items up to it take a worker. -/
theorem lt_reach_iff {results : List (Option ρ)} {w i : Nat} (hw : 0 < w) (hi : i < results.length) :
    i < reach w results ↔ lossesBelow (fun j => results[j]?.join) (i + 1) < w := by
  unfold reach losses
  cases hk : ((List.range results.length).filter fun i => results[i]?.join.isNone)[w - 1]? with
  | none =>
    have hlen : lossesBelow (fun j => results[j]?.join) results.length ≤ w - 1 := by
      rw [lossesBelow, List.countP_eq_length_filter]
      exact List.getElem?_eq_none_iff.1 hk
    have hle : lossesBelow (fun j => results[j]?.join) (i + 1) ≤ _ := lossesBelow_mono hi
    exact iff_of_true hi (by omega)
  | some k =>
    obtain ⟨hat, hafter, -⟩ := lossesBelow_of_getElem? hk
    rw [Option.getD_some]
    refine ⟨fun h => ?_, fun h => ?_⟩
    · have hle : lossesBelow (fun j => results[j]?.join) (i + 1) ≤ _ := lossesBelow_mono (Nat.succ_le_of_lt h)
      rw [hat] at hle
      omega
    · by_contra hge
      have hle : _ ≤ lossesBelow (fun j => results[j]?.join) (i + 1) :=
        lossesBelow_mono (Nat.succ_le_succ (Nat.le_of_not_lt hge))
      rw [hafter] at hle
      omega

/-! ### Workers and losses -/

/-- A worker that is lost, or that its item will take. -/
def isDoomed (work : Nat → Option ρ) : Worker ρ → Bool
  | .claimed i => (work i).isNone
  | .working i => (work i).isNone
  | .lost => true
  | _ => false

/-- Steps in which the work on an item comes to what `work` says. -/
abbrev Follows (work : Nat → Option ρ) : Nat → Option ρ → Prop := fun i o => work i = o

variable {may : Nat → Option ρ → Prop} {p q : Pool ρ} {k : Nat} {es fs : List Event}

private theorem countP_set_add {ws : List (Worker ρ)} {v : Worker ρ} (h : ws[k]? = some v) (w : Worker ρ)
    (d : Worker ρ → Bool) :
    (ws.set k w).countP d + (if d v then 1 else 0) = ws.countP d + (if d w then 1 else 0) := by
  obtain ⟨hk, rfl⟩ := List.getElem?_eq_some_iff.1 h
  have := List.boole_getElem_le_countP (p := d) hk
  rw [List.countP_set hk]
  omega

/-- The workers against the items below the cursor. -/
structure Tally (work : Nat → Option ρ) (p : Pool ρ) : Prop where
  doomed : p.workers.countP (isDoomed work) = lossesBelow work (min p.cursor p.slots.length)
  ended : .ended ∈ p.workers → p.slots.length ≤ p.cursor
  /-- An item is claimed by a worker that the losses before it have left. -/
  claimed : ∀ i, i < p.cursor → i < p.slots.length → lossesBelow work i < p.workers.length

theorem tally_start (work : Nat → Option ρ) (workers items : Nat) : Tally work (start workers items) := by
  refine ⟨?_, fun h => ?_, fun i hi => absurd hi (Nat.not_lt_zero i)⟩
  · simp [start, lossesBelow, isDoomed]
  · cases List.eq_of_mem_replicate h

/-- A step makes as many workers doomed as it takes losses over. -/
private theorem Effect.doomed (h : Effect (Follows work) p k fs q) :
    q.workers.countP (isDoomed work) + lossesBelow work (min p.cursor p.slots.length) =
      p.workers.countP (isDoomed work) + lossesBelow work (min q.cursor p.slots.length) := by
  cases h with
  | claim hw hc =>
    have hset : (p.workers.set k (.claimed p.cursor)).countP (isDoomed work) + 0 =
        p.workers.countP (isDoomed work) + (if (work p.cursor).isNone then 1 else 0) := countP_set_add hw _ _
    dsimp only
    rw [Nat.min_eq_left (Nat.le_of_lt hc), Nat.min_eq_left (Nat.succ_le_of_lt hc), lossesBelow_succ]
    omega
  | stop hw hc =>
    have hset : (p.workers.set k .ended).countP (isDoomed work) + 0 = p.workers.countP (isDoomed work) + 0 :=
      countP_set_add hw _ _
    dsimp only
    rw [Nat.min_eq_right hc, Nat.min_eq_right (Nat.le_succ_of_le hc)]
    omega
  | @start i hw =>
    exact congrArg (· + _) (Nat.add_right_cancel (countP_set_add hw (.working i) (isDoomed work)))
  | @finish w i r hw hi hm =>
    have hset := countP_set_add hw (.holding i r) (isDoomed work)
    have hw' : isDoomed work w = false := by rcases hi with rfl | rfl <;> simp only [isDoomed, hm] <;> rfl
    rw [hw'] at hset
    exact congrArg (· + _) hset
  | @lose w i hw hi hm =>
    have hset := countP_set_add hw .lost (isDoomed work)
    have hw' : isDoomed work w = true := by rcases hi with rfl | rfl <;> simp only [isDoomed, hm] <;> rfl
    rw [hw'] at hset
    exact congrArg (· + _) (Nat.add_right_cancel hset)
  | store hw => exact congrArg (· + _) (countP_set_add hw .ready (isDoomed work))

/-- A worker ends when no item is left. -/
private theorem Effect.ended (h : Effect may p k fs q) (he : .ended ∈ q.workers) :
    .ended ∈ p.workers ∨ p.slots.length ≤ p.cursor := by
  cases h with
  | stop hw hc => exact .inr hc
  | claim | start | finish | lose | store => exact .inl ((List.mem_or_eq_of_mem_set he).resolve_right nofun)

/-- A worker that is ready is not doomed, so that losing it as well would still leave a pool of this size. -/
private theorem countP_lt_of_ready (h : p.workers[k]? = some .ready) :
    p.workers.countP (isDoomed work) < p.workers.length := by
  have hset := countP_set_add h .lost (isDoomed work)
  have hle : (p.workers.set k .lost).countP (isDoomed work) ≤ _ := List.countP_le_length
  rw [List.length_set] at hle
  simp only [isDoomed, Bool.false_eq_true, if_false, if_true] at hset
  omega

theorem Tally.effect (h : Tally work p) (hs : Effect (Follows work) p k fs q) : Tally work q := by
  have hdoomed := h.doomed
  have hstep := hs.doomed
  have hcur := hs.cursor_le
  have hlen := hs.slots_length
  refine ⟨?_, ?_, ?_⟩
  · rw [hlen]
    omega
  · intro he
    have := (hs.ended he).elim h.ended id
    omega
  · intro i hi hn
    rw [hs.workers_length]
    by_cases hold : i < p.cursor
    · exact h.claimed i hold (hlen ▸ hn)
    · -- only a claim takes the cursor over an item that is there
      cases hs with
      | claim hw hc =>
        obtain rfl : i = p.cursor := by
          change i < p.cursor + 1 at hi
          omega
        have hready : p.workers.countP (isDoomed work) < p.workers.length := countP_lt_of_ready hw
        rw [hdoomed, Nat.min_eq_left (Nat.le_of_lt hc)] at hready
        exact hready
      | stop hw hc => exact absurd (Nat.lt_of_lt_of_le hn hc) hold
      | start | finish | lose | store => exact absurd hi hold

/-! ### What the slots hold -/

theorem putSlot_getElem? {slots : List (Option ρ)} {i : Nat} (h : slots[i]? = some none) (r : ρ) (j : Nat) :
    (putSlot slots i r)[j]? = if j = i then some (some r) else slots[j]? := by
  have hi := (List.getElem?_eq_some_iff.1 h).1
  simp only [putSlot, h]
  by_cases hj : j = i
  · rw [if_pos hj, hj, List.getElem?_set_self hi]
  · rw [if_neg hj, List.getElem?_set_ne (Ne.symm hj)]

theorem putSlot_getElem?_of_ne {slots : List (Option ρ)} {i j : Nat} (h : j ≠ i) (r : ρ) :
    (putSlot slots i r)[j]? = slots[j]? := by
  unfold putSlot
  split
  · exact List.getElem?_set_ne (Ne.symm h)
  · rfl

/-- The results on their way, and the slots they are stored in. -/
structure Stored (work : Nat → Option ρ) (es : List Event) (p : Pool ρ) : Prop where
  holding : ∀ (k i : Nat) (r : ρ), p.workers[k]? = some (.holding i r) → work i = some r
  slot : ∀ i, i < p.slots.length → p.slots[i]? = some (if .stored i ∈ es then work i else none)
  /-- A claimed item takes its worker, is stored, or is with a worker. -/
  settled : ∀ i, i < p.cursor → i < p.slots.length →
    work i = none ∨ .stored i ∈ es ∨ ∃ k a, p.placeAt? k = some (i, a)

theorem stored_start (work : Nat → Option ρ) (workers items : Nat) : Stored work [] (start workers items) := by
  refine ⟨fun k i r h => ?_, fun i hi => ?_, fun i hi => absurd hi (Nat.not_lt_zero i)⟩
  · rw [start, List.getElem?_replicate] at h
    split at h
    · cases Option.some.inj h
    · cases h
  · simp only [start, List.length_replicate] at hi
    simp [start, hi]

/-- Only `store` fills a slot. -/
theorem Effect.slots (h : Effect may p k fs q) :
    (q.slots = p.slots ∧ ∀ i, .stored i ∉ fs) ∨
      ∃ i r, p.workers[k]? = some (.holding i r) ∧ fs = [.stored i] ∧ q.slots = putSlot p.slots i r := by
  cases h with
  | @store i r hw => exact .inr ⟨i, r, hw, rfl, rfl⟩
  | _ => exact .inl ⟨rfl, by simp⟩

/-- An item that no event of a step is of stays with its worker, beyond the cursor, and in its slot. -/
theorem Effect.untouched (h : Effect may p k fs q) {i : Nat} (hi : i < p.slots.length)
    (hfs : ∀ e ∈ fs, e.place.1 ≠ i) :
    (∀ a, p.placeAt? k ≠ some (i, a)) ∧ (p.cursor ≤ i → q.cursor ≤ i) ∧ q.slots[i]? = p.slots[i]? := by
  refine ⟨fun a ha => ?_, fun hc => ?_, ?_⟩
  · rcases h.progress with ⟨hk, -⟩ | ⟨hk, -⟩ | ⟨j, b, e, hk, rfl, he, -⟩
    · exact nomatch hk.symm.trans ha
    · exact nomatch hk.symm.trans ha
    · obtain ⟨rfl, -⟩ := Prod.mk.inj (Option.some.inj (hk.symm.trans ha))
      exact hfs e (List.mem_singleton.2 rfl) he
  · rcases h.progress with ⟨-, -, rfl, hcur, -⟩ | ⟨-, hle, -, hcur, -⟩ | ⟨-, -, -, -, -, -, -, hcur, -⟩
    · have hne : p.cursor ≠ i := hfs (.claimed p.cursor) (List.mem_singleton.2 rfl)
      omega
    · omega
    · omega
  · rcases h.slots with ⟨hq, -⟩ | ⟨j, r, -, rfl, hq⟩
    · rw [hq]
    · have hne : j ≠ i := hfs (.stored j) (List.mem_singleton.2 rfl)
      rw [hq, putSlot_getElem?_of_ne hne.symm]

theorem Stored.effect {items : Nat} (ht : Tidy items es p) (h : Stored work es p)
    (hs : Effect (Follows work) p k fs q) : Stored work (es ++ fs) q := by
  refine ⟨fun l i r hl => ?_, fun i hi => ?_, fun i hi hn => ?_⟩
  · by_cases hlk : l = k
    · subst hlk
      cases hs with
      | finish hw _ hm =>
        rw [getElem?_set_of_some hw] at hl
        cases hl
        exact hm
      | claim hw | stop hw | start hw | lose hw | store hw =>
        rw [getElem?_set_of_some hw] at hl
        cases hl
    · exact h.holding l i r (hs.other hlk ▸ hl)
  · rw [hs.slots_length] at hi
    rcases hs.slots with ⟨hq, hfs⟩ | ⟨j, r, hw, rfl, hq⟩
    · rw [hq, h.slot i hi]
      simp [hfs i]
    · have hj : p.placeAt? k = some (j, 2) := by simp [placeAt?, hw, Worker.place?]
      have hfree : .stored j ∉ es := fun he => absurd (ht.behind _ he k 2 hj) (by simp [Event.place])
      have hslot := h.slot j (ht.length ▸ (ht.lt k j 2 hj).2)
      rw [if_neg hfree] at hslot
      rw [hq, putSlot_getElem? hslot r i, h.slot i hi]
      by_cases hij : i = j
      · simp [hij, h.holding k j r hw]
      · simp [hij]
  · rw [hs.slots_length] at hn
    -- an item that was claimed before stays with its worker, unless that worker steps
    have old : i < p.cursor → (∀ a, p.placeAt? k ≠ some (i, a)) →
        work i = none ∨ .stored i ∈ es ++ fs ∨ ∃ l a, q.placeAt? l = some (i, a) := by
      intro hi hk
      rcases h.settled i hi hn with hnone | hst | ⟨l, a, hl⟩
      · exact .inl hnone
      · exact .inr (.inl (List.mem_append_left _ hst))
      · have hlk : l ≠ k := fun hlk => hk a (hlk ▸ hl)
        exact .inr (.inr ⟨l, a, hs.placeAt?_other hlk ▸ hl⟩)
    rcases hs.progress with ⟨hk, hc, -, hcur, hq⟩ | ⟨hk, hc, -, -, -⟩ | ⟨j, a, e, hk, rfl, rfl, -, hcur, hq⟩
    · by_cases hic : i = p.cursor
      · exact .inr (.inr ⟨k, 0, hic ▸ hq⟩)
      · exact old (by omega) (by simp [hk])
    · exact old (Nat.lt_of_lt_of_le hn hc) (by simp [hk])
    · by_cases hij : e.place.1 = i
      · subst hij
        rcases hq with hq | ⟨-, he | hm⟩
        · exact .inr (.inr ⟨k, _, hq⟩)
        · exact .inr (.inl (List.mem_append_right _ (List.mem_singleton.2 he.symm)))
        · exact .inl hm
      · exact old (hcur ▸ hi) (by simp [hk, hij])

/-! ### Runs -/

variable {workers items : Nat}

theorem Run.tally (h : Run (Follows work) workers items es p) : Tally work p := by
  induction h with
  | start => exact tally_start work workers items
  | step _ hs ih => exact ih.effect hs.effect

theorem Run.stored (h : Run (Follows work) workers items es p) : Stored work es p := by
  induction h with
  | start => exact stored_start work workers items
  | step h hs ih => exact ih.effect h.tidy hs.effect

theorem placeAt?_eq_none_of_isOver (h : p.isOver = true) (k : Nat) : p.placeAt? k = none := by
  unfold placeAt?
  cases hw : p.workers[k]? with
  | none => rfl
  | some w =>
    have := List.all_eq_true.1 h w (List.mem_of_getElem? hw)
    cases w <;> first | rfl | cases this

/-- At the end, a slot holds a result exactly when the losses up to it have left a worker. -/
theorem slot_of_isOver (h : Run (Follows work) workers items es p) (hover : p.isOver = true) {i : Nat}
    (hi : i < items) : p.slots[i]? = some (if lossesBelow work (i + 1) < workers then work i else none) := by
  have hlen := h.tidy.length
  have htally := h.tally
  rw [h.stored.slot i (hlen ▸ hi)]
  congr 1
  by_cases hic : i < p.cursor
  · have hlt := htally.claimed i hic (hlen ▸ hi)
    rw [h.workers_length] at hlt
    rcases h.stored.settled i hic (hlen ▸ hi) with hnone | hst | ⟨k, a, hk⟩
    · simp [hnone]
    · rw [if_pos hst]
      cases hwork : work i with
      | none => simp
      | some r => simp [lossesBelow_succ, hwork, hlt]
    · rw [placeAt?_eq_none_of_isOver hover k] at hk
      cases hk
  · -- nobody has found the items used up, so every worker is lost
    have hfresh : .stored i ∉ es := fun he => hic (h.tidy.event_lt _ he).1
    have hlost : ∀ w ∈ p.workers, isDoomed work w = true := by
      intro w hw
      have := List.all_eq_true.1 hover w hw
      cases w with
      | lost => rfl
      | ended => exact absurd (htally.ended hw) (by omega)
      | _ => cases this
    have hall := htally.doomed
    rw [List.countP_eq_length.2 hlost, h.workers_length, Nat.min_eq_left (by omega)] at hall
    have hle : lossesBelow work p.cursor ≤ lossesBelow work (i + 1) := lossesBelow_mono (by omega)
    rw [if_neg hfresh, if_neg (by omega)]

variable {α : Type v} {list : List α} {f : α → Option ρ}

theorem getElem?_kept {w i : Nat} {results : List (Option ρ)} :
    (kept w results)[i]? = results[i]?.map fun r => if i < reach w results then r else none := by
  simp only [kept, List.getElem?_mapIdx]

/-- The slots do not depend on the order of the steps. -/
theorem slots_of_isOver (hw : 0 < workers) (h : Run (Follows fun i => list[i]?.bind f) workers list.length es p)
    (hover : p.isOver = true) : p.slots = kept workers (list.map f) := by
  refine List.ext_getElem? fun i => ?_
  rw [getElem?_kept, List.getElem?_map]
  by_cases hi : i < list.length
  · have hwork : (fun j : Nat => (list.map f)[j]?.join) = fun j => list[j]?.bind f := by
      funext j
      cases hj : list[j]? <;> simp [hj]
    have hreach : i < reach workers (list.map f) ↔ _ := lt_reach_iff hw (by simpa using hi)
    rw [hwork] at hreach
    rw [slot_of_isOver h hover hi, List.getElem?_eq_getElem hi]
    simp [hreach]
  · have hlen := h.tidy.length
    rw [List.getElem?_eq_none (by omega), List.getElem?_eq_none (by omega)]
    rfl

end Pool

end ScriptRunner
