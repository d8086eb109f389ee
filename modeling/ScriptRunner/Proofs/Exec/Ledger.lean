import Mathlib.Logic.Function.Basic
import ScriptRunner.Proofs.Exec.History
import ScriptRunner.Proofs.Exec.PoolSlots

/-!
# Acts and results of a group

While a group runs, each of its items stands in one of three ways (`Standing`): nobody has claimed it; a worker has it,
and what was done for it fits the worker (`Has`); or it is closed, and what was done for it fits its slot (`Done`).  A
worker that is lost has lost its item in the middle of a call, and a worker ends only when all items are claimed.  A step
touches the item of its event alone, and so keeps this `Ledger` (`Ledger.step`).

When the group closes, every member has a result that its acts account for (`Ledger.accounts`): the result that its
table or its call has led to, or the one of a lost worker.  A member for which nothing was done has been left behind by
workers that were all lost.
-/

namespace ScriptRunner

/-- A worker that claims is ready, and takes the item at the cursor or ends. -/
theorem Pool.ready_of_claim? {ρ : Type} {p q : Pool ρ} {k : Nat} (h : p.claim? k = some q) :
    p.workers[k]? = some .ready ∧
      ∃ w, (p.cursor < p.slots.length ∧ w = .claimed p.cursor ∨ p.slots.length ≤ p.cursor ∧ w = .ended) ∧
        q = ⟨p.cursor + 1, p.workers.set k w, p.slots⟩ := by
  unfold claim? at h
  split at h
  · rename_i hw
    refine ⟨hw, _, ?_, (Option.some.inj h).symm⟩
    by_cases hc : p.cursor < p.slots.length
    · exact .inl ⟨hc, if_pos hc⟩
    · exact .inr ⟨Nat.le_of_not_lt hc, if_neg hc⟩
  · cases h

namespace Pass

/-! ### Acts for one member -/

/-- What was done for a member whose program has been called. -/
def Calling (s : RunSettings) (m : Member) (acts : List Act) : Prop :=
  ∃ table request, (opening s m table).value = .call request ∧ acts = [.read table, .called request]

/-- All that is done for a member, and what comes of it: a result, or nothing if the worker is lost. -/
inductive Done (s : RunSettings) (m : Member) : List Act → Option ScriptResult → Prop
  | settled {table : Except TableError (Option ScriptTable)} {r : ScriptResult}
    (ho : (opening s m table).value = .settled r) : Done s m [.read table] (some r)
  | answered {table : Except TableError (Option ScriptTable)} {request : Call} {reply : Reply} {took : Duration}
    (ho : (opening s m table).value = .call request) :
    Done s m [.read table, .called request, .answered reply took] (closing s m reply took).value

/-- What was done for a member that a worker has. -/
inductive Has (s : RunSettings) (m : Member) (acts : List Act) : Worker ScriptResult → Prop
  | claimed {i : Nat} (h : acts = []) : Has s m acts (.claimed i)
  | working {i : Nat} (h : Calling s m acts) : Has s m acts (.working i)
  | holding {i : Nat} {r : ScriptResult} (h : Done s m acts (some r)) : Has s m acts (.holding i r)

variable {s : RunSettings} {m : Member} {group : List Member} {pool pool' : Pool ScriptResult} {acts : Nat → List Act}
  {k : Nat}

theorem Done.not_open {o : Option ScriptResult} {as : List Act} (h : Done s m as o) : as ≠ [] ∧ ¬Calling s m as := by
  cases h with
  | settled => exact ⟨List.cons_ne_nil _ _, fun ⟨_, _, _, h⟩ => by simp at h⟩
  | answered => exact ⟨List.cons_ne_nil _ _, fun ⟨_, _, _, h⟩ => by simp at h⟩

/-- The answer to a call settles what comes of it. -/
theorem Calling.answered {as : List Act} (h : Calling s m as) (reply : Reply) (took : Duration) :
    Done s m (as ++ [.answered reply took]) (closing s m reply took).value := by
  obtain ⟨table, request, ho, rfl⟩ := h
  exact .answered ho

/-! ### The ledger of a group -/

/-- How an item of a group stands. -/
inductive Standing (s : RunSettings) (m : Member) (pool : Pool ScriptResult) (i : Nat) (acts : List Act) : Prop
  /-- Nobody has claimed the item. -/
  | fresh (hc : pool.cursor ≤ i) (ha : acts = []) (hslot : pool.slots[i]? = some none)
  /-- A worker has the item. -/
  | busy {k a : Nat} {w : Worker ScriptResult} (hk : pool.workers[k]? = some w) (hi : w.place? = some (i, a))
    (hhas : Has s m acts w) (hslot : pool.slots[i]? = some none)
  /-- No worker has the item any more. -/
  | closed {o : Option ScriptResult} (hc : i < pool.cursor) (hfree : ∀ k a, pool.placeAt? k ≠ some (i, a))
    (hd : Done s m acts o) (hslot : pool.slots[i]? = some o)

/-- What was done for the items of a group, against the pool that runs it. -/
structure Ledger (s : RunSettings) (group : List Member) (pool : Pool ScriptResult) (acts : Nat → List Act) : Prop where
  tidy : ∃ es, Pool.Tidy group.length es pool
  crew : 0 < pool.workers.length
  standing : ∀ (i : Nat) m, group[i]? = some m → Standing s m pool i (acts i)
  ended : .ended ∈ pool.workers → group.length ≤ pool.cursor
  lost : .lost ∈ pool.workers → ∃ (i : Nat) (m : Member), group[i]? = some m ∧ Done s m (acts i) none

theorem ledger_start (s : RunSettings) (group : List Member) {started : Nat} (h : 0 < started) :
    Ledger s group (Pool.start started group.length) fun _ => [] := by
  refine ⟨⟨[], Pool.tidy_start started group.length⟩, by simpa [Pool.start] using h, fun i m hm => ?_, fun h => ?_,
    fun h => ?_⟩
  · have hi := (List.getElem?_eq_some_iff.1 hm).1
    exact .fresh (Nat.zero_le i) rfl (by simp [Pool.start, hi])
  · cases List.eq_of_mem_replicate h
  · cases List.eq_of_mem_replicate h

variable {i j a : Nat} {w : Worker ScriptResult} {fs : List Pool.Event} {acts' : Nat → List Act}

/-- An item of a worker. -/
theorem Ledger.busy (h : Ledger s group pool acts) (hk : pool.workers[k]? = some w) (hi : w.place? = some (i, a))
    (hm : group[i]? = some m) : Has s m (acts i) w ∧ pool.slots[i]? = some none := by
  obtain ⟨es, htidy⟩ := h.tidy
  have hplace : pool.placeAt? k = some (i, a) := (Pool.placeAt?_of_getElem? hk).trans hi
  cases h.standing i m hm with
  | fresh hc => exact absurd (htidy.lt k i a hplace).1 (Nat.not_lt.2 hc)
  | @busy l b v hl hi' hhas hslot =>
    obtain rfl := htidy.unique l k i b a ((Pool.placeAt?_of_getElem? hl).trans hi') hplace
    obtain rfl := Option.some.inj (hl.symm.trans hk)
    exact ⟨hhas, hslot⟩
  | closed _ hfree => exact absurd hplace (hfree k a)

theorem Ledger.acts_of_claimed (h : Ledger s group pool acts) (hw : pool.workers[k]? = some (.claimed i))
    (hm : group[i]? = some m) : acts i = [] := by
  cases (h.busy hw rfl hm).1 with
  | claimed hnil => exact hnil

theorem Ledger.acts_of_working (h : Ledger s group pool acts) (hw : pool.workers[k]? = some (.working i))
    (hm : group[i]? = some m) : Calling s m (acts i) := by
  cases (h.busy hw rfl hm).1 with
  | working hcalling => exact hcalling

/-- Nothing is settled for an item that nobody has claimed. -/
theorem Ledger.acts_of_cursor_le (h : Ledger s group pool acts) (hc : pool.cursor ≤ i) (hm : group[i]? = some m) :
    acts i = [] ∧ pool.slots[i]? = some none := by
  obtain ⟨es, htidy⟩ := h.tidy
  cases h.standing i m hm with
  | fresh _ ha hslot => exact ⟨ha, hslot⟩
  | @busy l b v hl hi' =>
    exact absurd (htidy.lt l i b ((Pool.placeAt?_of_getElem? hl).trans hi')).1 (Nat.not_lt.2 hc)
  | closed hc' => exact absurd hc' (Nat.not_lt.2 hc)

/-- An item whose events a step does not record stands as before. -/
theorem Standing.frame {as : List Act} (h : Standing s m pool i as) (hs : Pool.Effect (fun _ _ => True) pool k fs pool')
    (hi : i < pool.slots.length) (hfs : ∀ e ∈ fs, e.place.1 ≠ i) : Standing s m pool' i as := by
  obtain ⟨hk, hcursor, hslots⟩ := hs.untouched hi hfs
  cases h with
  | fresh hc ha hslot => exact .fresh (hcursor hc) ha (hslots.trans hslot)
  | @busy l b w hl hi' hhas hslot =>
    have hlk : l ≠ k := by
      rintro rfl
      exact hk b ((Pool.placeAt?_of_getElem? hl).trans hi')
    exact .busy ((hs.other hlk).trans hl) hi' hhas (hslots.trans hslot)
  | closed hc hfree hd hslot =>
    refine .closed (Nat.lt_of_lt_of_le hc hs.cursor_le) (fun l b hl => ?_) hd (hslots.trans hslot)
    rcases hs.place hl with ⟨-, hl⟩ | ⟨-, e, he, hplace⟩
    · exact hfree l b hl
    · exact hfs e he (by rw [hplace])

/-- A step keeps the ledger if the item of its event stands as it should, and so does its worker if it has come to an
end. -/
theorem Ledger.step (h : Ledger s group pool acts) (hs : Pool.Effect (fun _ _ => True) pool k fs pool')
    (hacts : ∀ i, (∀ e ∈ fs, e.place.1 ≠ i) → acts' i = acts i)
    (hold : ∀ (i : Nat) m, group[i]? = some m → Done s m (acts i) none → acts' i = acts i)
    (hnew : ∀ e ∈ fs, ∀ m, group[e.place.1]? = some m → Standing s m pool' e.place.1 (acts' e.place.1))
    (hended : pool'.workers[k]? = some .ended → group.length ≤ pool'.cursor)
    (hlost : pool'.workers[k]? = some .lost → ∃ (i : Nat) (m : Member), group[i]? = some m ∧ Done s m (acts' i) none) :
    Ledger s group pool' acts' := by
  obtain ⟨es, htidy⟩ := h.tidy
  have hmem : ∀ w ∈ pool'.workers, w ∈ pool.workers ∨ pool'.workers[k]? = some w := by
    intro w hw
    obtain ⟨l, hl⟩ := List.mem_iff_getElem?.1 hw
    by_cases hlk : l = k
    · exact .inr (hlk ▸ hl)
    · exact .inl (List.mem_of_getElem? ((hs.other hlk).symm.trans hl))
  refine ⟨⟨_, htidy.effect hs⟩, hs.workers_length ▸ h.crew, fun i m hm => ?_, fun he => ?_, fun hl => ?_⟩
  -- an item that the step does not touch stands as before
  · by_cases hfs : ∀ e ∈ fs, e.place.1 ≠ i
    · rw [hacts i hfs]
      exact (h.standing i m hm).frame hs (htidy.length ▸ (List.getElem?_eq_some_iff.1 hm).1) hfs
    · push Not at hfs
      obtain ⟨e, he, rfl⟩ := hfs
      exact hnew e he m hm
  · exact (hmem _ he).elim (fun he => (h.ended he).trans hs.cursor_le) hended
  · rcases hmem _ hl with hl | hl
    · obtain ⟨i, m, hm, hd⟩ := h.lost hl
      exact ⟨i, m, hm, by rwa [hold i m hm hd]⟩
    · exact hlost hl

/-- A worker does something for its item: it goes on with it, or is lost. -/
theorem Ledger.advance (h : Ledger s group pool acts) {v w : Worker ScriptResult} {new : List Act}
    (hv : pool.workers[k]? = some v) (hj : v = .claimed j ∨ v = .working j)
    (hs : Pool.Step (fun _ _ => True) pool k fs (pool.setWorker k w)) (hm : group[j]? = some m)
    (hw : (∃ c, w.place? = some (j, c) ∧ Has s m (acts j ++ new) w) ∨ w = .lost ∧ Done s m (acts j ++ new) none) :
    Ledger s group (pool.setWorker k w) (Function.update acts j (acts j ++ new)) := by
  obtain ⟨b, hb⟩ : ∃ b, v.place? = some (j, b) := by rcases hj with rfl | rfl <;> exact ⟨_, rfl⟩
  have hk : pool.placeAt? k = some (j, b) := (Pool.placeAt?_of_getElem? hv).trans hb
  have hk' : (pool.setWorker k w).workers[k]? = some w := Pool.getElem?_set_of_some hv
  obtain ⟨es, htidy⟩ := h.tidy
  obtain ⟨hhas, hslot⟩ := h.busy hv hb hm
  obtain ⟨e, rfl, he⟩ := hs.effect.event_of_placeAt? hk
  refine h.step hs.effect (fun i hi => ?_) (fun i m' hm' hd => ?_) (fun e' he' m' hm' => ?_) (fun hended => ?_)
    fun hlost => ?_
  · exact Function.update_of_ne (fun hij => hi e (List.mem_singleton.2 rfl) (he.trans hij.symm)) _ _
  · -- nothing was settled for the item before
    refine Function.update_of_ne ?_ _ _
    rintro rfl
    obtain rfl := Option.some.inj (hm.symm.trans hm')
    cases hhas with
    | claimed hnil => exact hd.not_open.1 hnil
    | working hcalling => exact hd.not_open.2 hcalling
    | holding => rcases hj with hj | hj <;> cases hj
  · obtain rfl := List.mem_singleton.1 he'
    rw [he] at hm' ⊢
    obtain rfl := Option.some.inj (hm.symm.trans hm')
    rw [Function.update_self]
    rcases hw with ⟨c, hc, hnew⟩ | ⟨rfl, hdone⟩
    · exact .busy hk' hc hnew hslot
    · exact .closed (htidy.lt k j b hk).1 (htidy.placeAt?_ne hs.effect hk (Pool.placeAt?_of_getElem? hk')) hdone hslot
  · obtain rfl := Option.some.inj (hk'.symm.trans hended)
    rcases hw with ⟨c, hc, -⟩ | ⟨hw, -⟩
    · cases hc
    · cases hw
  · obtain rfl := Option.some.inj (hk'.symm.trans hlost)
    rcases hw with ⟨c, hc, -⟩ | ⟨-, hdone⟩
    · cases hc
    · exact ⟨j, m, hm, by rwa [Function.update_self]⟩

/-- A worker claims an item, or ends. -/
theorem Ledger.claim (h : Ledger s group pool acts) (hc : pool.claim? k = some pool') : Ledger s group pool' acts := by
  obtain ⟨es, htidy⟩ := h.tidy
  obtain ⟨hw, w, hcase, rfl⟩ := Pool.ready_of_claim? hc
  have hk' := Pool.getElem?_set_of_some (b := w) hw
  rcases hcase with ⟨hlt, rfl⟩ | ⟨hle, rfl⟩
  · have hs : Pool.Effect (fun _ _ => True) pool k _ _ := .claim hw hlt
    refine h.step hs (fun _ _ => rfl) (fun _ _ _ _ => rfl) (fun e he m hm => ?_) (fun hw' => nomatch hk'.symm.trans hw')
      fun hw' => nomatch hk'.symm.trans hw'
    obtain rfl := List.mem_singleton.1 he
    obtain ⟨hnil, hslot⟩ := h.acts_of_cursor_le (Nat.le_refl _) hm
    exact .busy hk' rfl (.claimed hnil) hslot
  · have hs : Pool.Effect (fun _ _ => True) pool k _ _ := .stop hw hle
    exact h.step hs (fun _ _ => rfl) (fun _ _ _ _ => rfl) nofun (fun _ => Nat.le_succ_of_le (htidy.length ▸ hle))
      fun hw' => nomatch hk'.symm.trans hw'

/-- A worker stores its result. -/
theorem Ledger.store (h : Ledger s group pool acts) (hc : pool.store? k = some pool') : Ledger s group pool' acts := by
  obtain ⟨es, htidy⟩ := h.tidy
  obtain ⟨j, r, hw⟩ : ∃ j r, pool.workers[k]? = some (.holding j r) := by
    unfold Pool.store? at hc
    split at hc
    · exact ⟨_, _, ‹_›⟩
    · cases hc
  rw [Pool.store?_of_holding hw] at hc
  obtain rfl := Option.some.inj hc
  have hs : Pool.Effect (fun _ _ => True) pool k _ _ := .store hw
  have hk : pool.placeAt? k = some (j, 2) := Pool.placeAt?_of_getElem? hw
  have hk' := Pool.getElem?_set_of_some (b := Worker.ready) hw
  refine h.step hs (fun _ _ => rfl) (fun _ _ _ _ => rfl) (fun e he m hm => ?_) (fun hw' => nomatch hk'.symm.trans hw')
    fun hw' => nomatch hk'.symm.trans hw'
  obtain rfl := List.mem_singleton.1 he
  obtain ⟨hhas, hslot⟩ := h.busy hw rfl hm
  cases hhas with
  | holding hdone =>
    exact .closed (htidy.lt k j 2 hk).1 (htidy.placeAt?_ne hs hk (Pool.placeAt?_set hw _ _)) hdone
      ((Pool.putSlot_getElem? hslot r j).trans (if_pos rfl))

/-! ### The results of a group -/

/-- A result that the acts for a member account for, given the acts for its group. -/
inductive Accounts (s : RunSettings) (group : List Member) (acts : Nat → List Act) (i : Nat) (m : Member) :
    ScriptResult → Prop
  | done {r : ScriptResult} (h : Done s m (acts i) (some r)) : Accounts s group acts i m r
  /-- The worker was lost during the call of the member. -/
  | lost (h : Done s m (acts i) none) : Accounts s group acts i m (lostResult m)
  /-- The workers were lost before one of them came to the member. -/
  | forsaken (h : acts i = []) (hl : ∃ (j : Nat) (m' : Member), group[j]? = some m' ∧ Done s m' (acts j) none) :
    Accounts s group acts i m (lostResult m)

/-- What a group has come to whose pool was opened with so many workers. -/
inductive GroupDone (s : RunSettings) (group : List Member) (acts : Nat → List Act) :
    (started : Nat) → List ScriptResult → Prop
  | unstarted (ha : ∀ i, acts i = []) :
    GroupDone s group acts 0
      (group.map fun m => .failed m.name (.infrastructure (PoolError.message ⟨min s.workers group.length⟩)))
  | ran {started : Nat} {rs : List ScriptResult} (hs : 0 < started) (hlen : rs.length = group.length)
    (h : ∀ (i : Nat) m r, group[i]? = some m → rs[i]? = some r → Accounts s group acts i m r) :
    GroupDone s group acts started rs

theorem length_resultsOf {slots : List (Option ScriptResult)} (h : slots.length = group.length) :
    (resultsOf group slots).length = group.length := by
  simp [resultsOf, h]

/-- When all workers are done, the acts account for the results. -/
theorem Ledger.accounts (h : Ledger s group pool acts) (hover : pool.isOver = true) {i : Nat} {r : ScriptResult}
    (hm : group[i]? = some m) (hr : (resultsOf group pool.slots)[i]? = some r) : Accounts s group acts i m r := by
  obtain ⟨es, htidy⟩ := h.tidy
  have hi : i < group.length := (List.getElem?_eq_some_iff.1 hm).1
  obtain ⟨o, ho⟩ : ∃ o, pool.slots[i]? = some o := ⟨_, List.getElem?_eq_getElem (htidy.length ▸ hi)⟩
  obtain rfl : o.getD (lostResult m) = r := by
    simpa [resultsOf, List.getElem?_zip_eq_some, ho, hm] using hr
  cases h.standing i m hm with
  | closed _ _ hdone ho' =>
    obtain rfl := Option.some.inj (ho.symm.trans ho')
    cases o with
    | none => exact .lost hdone
    | some r => exact .done hdone
  | @busy k a w hk hplace =>
    exact nomatch (Pool.placeAt?_eq_none_of_isOver hover k).symm.trans ((Pool.placeAt?_of_getElem? hk).trans hplace)
  | fresh hc hnil ho' =>
    -- nobody has found the items used up, so the workers are lost
    obtain rfl := Option.some.inj (ho.symm.trans ho')
    obtain ⟨w, hw⟩ := List.exists_mem_of_length_pos h.crew
    have hdone := List.all_eq_true.1 hover w hw
    refine .forsaken hnil (h.lost ?_)
    cases w with
    | lost => exact hw
    | ended => exact absurd (h.ended hw) (Nat.not_le.2 (Nat.lt_of_le_of_lt hc hi))
    | _ => cases hdone

theorem Ledger.groupDone (h : Ledger s group pool acts) (hover : pool.isOver = true) {started : Nat}
    (hs : 0 < started) : GroupDone s group acts started (resultsOf group pool.slots) := by
  obtain ⟨es, htidy⟩ := h.tidy
  exact .ran hs (length_resultsOf htidy.length) fun i m r hm hr => h.accounts hover hm hr

end Pass

end ScriptRunner
