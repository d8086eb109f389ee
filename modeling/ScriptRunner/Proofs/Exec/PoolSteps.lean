import Mathlib.Algebra.GroupWithZero.Nat
import Mathlib.Data.List.Nodup
import ScriptRunner.Exec.Pool

/-!
# Steps of a pool

`Pool.Step` is one step of one worker, made by one of the functions of `Pool`; a `Pool.Run` is any number of steps of
any workers in any order.  What the work on an item may come to is a parameter.  `Step.effect` says once what a step
does to the state, and the facts about runs are read off it.

The steps with an item are recorded as events.  A worker passes through the stages of its item in order, no two workers
have the same item, and an event of an item is behind a worker that has the item (`Run.tidy`).  So no event comes twice:
no item is claimed, worked on or stored twice.  While a worker is not done a step can be made (`exists_step`), and each
step lowers the rank of the state (`Step.rank_lt`), so that every run comes to its end.
-/

namespace ScriptRunner

universe u

variable {ρ : Type u}

/-! ### Stages of an item -/

/-- The item of a worker and the stage that the worker has reached with it. -/
def Worker.place? : Worker ρ → Option (Nat × Nat)
  | .claimed i => some (i, 0)
  | .working i => some (i, 1)
  | .holding i _ => some (i, 2)
  | _ => none

namespace Pool

/-- What happens to an item. -/
inductive Event where
  | claimed (item : Nat)
  | began (item : Nat)
  /-- The work has given a result, or the worker is lost. -/
  | ended (item : Nat)
  | stored (item : Nat)
  deriving DecidableEq, Repr

/-- The item of an event and the stage that is reached by it. -/
def Event.place : Event → Nat × Nat
  | claimed i => (i, 0)
  | began i => (i, 1)
  | ended i => (i, 2)
  | stored i => (i, 3)

/-- The item of worker `k` and its stage. -/
def placeAt? (p : Pool ρ) (k : Nat) : Option (Nat × Nat) := p.workers[k]?.bind Worker.place?

/-- The item that worker `k` has claimed or works on. -/
def openItem? (p : Pool ρ) (k : Nat) : Option Nat :=
  match p.workers[k]? with
  | some (.claimed i) => some i
  | some (.working i) => some i
  | _ => none

variable {may : Nat → Option ρ → Prop} {p q : Pool ρ} {k : Nat} {es fs : List Event}

theorem openItem?_eq_some_iff {i : Nat} :
    p.openItem? k = some i ↔ ∃ w, p.workers[k]? = some w ∧ (w = .claimed i ∨ w = .working i) := by
  unfold openItem?
  split
  · simp_all
  · simp_all
  · rename_i hclaimed hworking
    refine ⟨by simp, ?_⟩
    rintro ⟨w, hw, rfl | rfl⟩
    · exact absurd hw (hclaimed i)
    · exact absurd hw (hworking i)

theorem start?_of_claimed {i : Nat} (h : p.workers[k]? = some (.claimed i)) :
    p.start? k = some (p.setWorker k (.working i)) := by
  simp only [start?, h]

theorem finish?_of_openItem? {i : Nat} (h : p.openItem? k = some i) (r : ρ) :
    p.finish? k r = some (p.setWorker k (.holding i r)) := by
  obtain ⟨w, hw, rfl | rfl⟩ := openItem?_eq_some_iff.1 h <;> simp only [finish?, hw]

theorem lose?_of_openItem? {i : Nat} (h : p.openItem? k = some i) : p.lose? k = some (p.setWorker k .lost) := by
  obtain ⟨w, hw, rfl | rfl⟩ := openItem?_eq_some_iff.1 h <;> simp only [lose?, hw]

theorem store?_of_holding {i : Nat} {r : ρ} (h : p.workers[k]? = some (.holding i r)) :
    p.store? k = some { p.setWorker k .ready with slots := putSlot p.slots i r } := by
  simp only [store?, h]

/-! ### One step -/

/-- One step of worker `k`, and the events that record it.  `may i o` says that the work on item `i` may come to `o`:
to a result, or to nothing when the worker is lost. -/
inductive Step (may : Nat → Option ρ → Prop) (p : Pool ρ) (k : Nat) : List Event → Pool ρ → Prop
  | claim {q : Pool ρ} (h : p.claim? k = some q) :
    Step may p k (if p.cursor < p.slots.length then [.claimed p.cursor] else []) q
  | start {i : Nat} {q : Pool ρ} (hi : p.openItem? k = some i) (h : p.start? k = some q) : Step may p k [.began i] q
  | finish {i : Nat} {r : ρ} {q : Pool ρ} (hi : p.openItem? k = some i) (hm : may i (some r))
    (h : p.finish? k r = some q) : Step may p k [.ended i] q
  | lose {i : Nat} {q : Pool ρ} (hi : p.openItem? k = some i) (hm : may i none) (h : p.lose? k = some q) :
    Step may p k [.ended i] q
  | store {i : Nat} {r : ρ} {q : Pool ρ} (hi : p.workers[k]? = some (.holding i r)) (h : p.store? k = some q) :
    Step may p k [.stored i] q

/-- The states that steps of the workers lead to, in any order, and the events on the way. -/
inductive Run (may : Nat → Option ρ → Prop) (workers items : Nat) : List Event → Pool ρ → Prop
  | start : Run may workers items [] (Pool.start workers items)
  | step {es fs : List Event} {p q : Pool ρ} {k : Nat} (h : Run may workers items es p) (hs : Step may p k fs q) :
    Run may workers items (es ++ fs) q

/-- What a step does to the state. -/
inductive Effect (may : Nat → Option ρ → Prop) (p : Pool ρ) (k : Nat) : List Event → Pool ρ → Prop
  | claim (hw : p.workers[k]? = some .ready) (hc : p.cursor < p.slots.length) :
    Effect may p k [.claimed p.cursor] ⟨p.cursor + 1, p.workers.set k (.claimed p.cursor), p.slots⟩
  | stop (hw : p.workers[k]? = some .ready) (hc : p.slots.length ≤ p.cursor) :
    Effect may p k [] ⟨p.cursor + 1, p.workers.set k .ended, p.slots⟩
  | start {i : Nat} (hw : p.workers[k]? = some (.claimed i)) :
    Effect may p k [.began i] ⟨p.cursor, p.workers.set k (.working i), p.slots⟩
  | finish {w : Worker ρ} {i : Nat} {r : ρ} (hw : p.workers[k]? = some w) (hi : w = .claimed i ∨ w = .working i)
    (hm : may i (some r)) : Effect may p k [.ended i] ⟨p.cursor, p.workers.set k (.holding i r), p.slots⟩
  | lose {w : Worker ρ} {i : Nat} (hw : p.workers[k]? = some w) (hi : w = .claimed i ∨ w = .working i)
    (hm : may i none) : Effect may p k [.ended i] ⟨p.cursor, p.workers.set k .lost, p.slots⟩
  | store {i : Nat} {r : ρ} (hw : p.workers[k]? = some (.holding i r)) :
    Effect may p k [.stored i] ⟨p.cursor, p.workers.set k .ready, putSlot p.slots i r⟩

theorem Step.effect (h : Step may p k fs q) : Effect may p k fs q := by
  cases h with
  | claim h =>
    unfold claim? at h
    split at h
    · rename_i hw
      obtain rfl := Option.some.inj h
      by_cases hc : p.cursor < p.slots.length
      · simp only [hc, if_true]
        exact .claim hw hc
      · simp only [hc, if_false]
        exact .stop hw (Nat.le_of_not_lt hc)
    · cases h
  | start hi h =>
    unfold start? at h
    split at h
    · rename_i j hw
      obtain rfl := Option.some.inj h
      obtain rfl : j = _ := by simpa [openItem?, hw] using hi
      exact .start hw
    · cases h
  | finish hi hm h =>
    rw [finish?_of_openItem? hi] at h
    obtain rfl := Option.some.inj h
    obtain ⟨w, hw, hi⟩ := openItem?_eq_some_iff.1 hi
    exact .finish hw hi hm
  | lose hi hm h =>
    rw [lose?_of_openItem? hi] at h
    obtain rfl := Option.some.inj h
    obtain ⟨w, hw, hi⟩ := openItem?_eq_some_iff.1 hi
    exact .lose hw hi hm
  | store hi h =>
    rw [store?_of_holding hi] at h
    obtain rfl := Option.some.inj h
    exact .store hi

theorem Effect.workers_length (h : Effect may p k fs q) : q.workers.length = p.workers.length := by
  cases h <;> simp

theorem length_putSlot (slots : List (Option ρ)) (i : Nat) (r : ρ) : (putSlot slots i r).length = slots.length := by
  unfold putSlot
  split <;> simp

theorem Effect.slots_length (h : Effect may p k fs q) : q.slots.length = p.slots.length := by
  cases h with
  | store => exact length_putSlot _ _ _
  | _ => rfl

/-- A worker other than the one that steps stays as it is. -/
theorem Effect.other (h : Effect may p k fs q) {l : Nat} (hl : l ≠ k) : q.workers[l]? = p.workers[l]? := by
  cases h <;> exact List.getElem?_set_ne (Ne.symm hl)

theorem getElem?_set_of_some {α : Type u} {xs : List α} {a b : α} (h : xs[k]? = some a) :
    (xs.set k b)[k]? = some b :=
  List.getElem?_set_self (List.getElem?_eq_some_iff.1 h).1

theorem placeAt?_of_getElem? {w : Worker ρ} (h : p.workers[k]? = some w) : p.placeAt? k = w.place? := by
  simp only [placeAt?, h, Option.bind_some]

theorem placeAt?_set {v w : Worker ρ} (h : p.workers[k]? = some v) (c : Nat) (slots : List (Option ρ)) :
    placeAt? ⟨c, p.workers.set k w, slots⟩ k = w.place? :=
  placeAt?_of_getElem? (getElem?_set_of_some h)

/-- How a step moves its worker from stage to stage: to a new item, to an end, or onwards with its item. -/
theorem Effect.progress (h : Effect may p k fs q) :
    (p.placeAt? k = none ∧ p.cursor < p.slots.length ∧ fs = [.claimed p.cursor] ∧ q.cursor = p.cursor + 1 ∧
        q.placeAt? k = some (p.cursor, 0)) ∨
      (p.placeAt? k = none ∧ p.slots.length ≤ p.cursor ∧ fs = [] ∧ q.cursor = p.cursor + 1 ∧ q.placeAt? k = none) ∨
      ∃ i a e, p.placeAt? k = some (i, a) ∧ fs = [e] ∧ e.place.1 = i ∧ a < e.place.2 ∧ q.cursor = p.cursor ∧
        (q.placeAt? k = some e.place ∨ q.placeAt? k = none ∧ (e = .stored i ∨ may i none)) := by
  cases h with
  | claim hw hc => exact .inl ⟨placeAt?_of_getElem? hw, hc, rfl, rfl, placeAt?_set hw _ _⟩
  | stop hw hc => exact .inr (.inl ⟨placeAt?_of_getElem? hw, hc, rfl, rfl, placeAt?_set hw _ _⟩)
  | @start i hw =>
    exact .inr (.inr ⟨i, 0, .began i, placeAt?_of_getElem? hw, rfl, rfl, Nat.zero_lt_one, rfl,
      .inl (placeAt?_set hw _ _)⟩)
  | @finish w i r hw hi =>
    have hp := placeAt?_of_getElem? hw
    rcases hi with rfl | rfl
    · exact .inr (.inr ⟨i, 0, .ended i, hp, rfl, rfl, Nat.zero_lt_two, rfl, .inl (placeAt?_set hw _ _)⟩)
    · exact .inr (.inr ⟨i, 1, .ended i, hp, rfl, rfl, Nat.one_lt_two, rfl, .inl (placeAt?_set hw _ _)⟩)
  | @lose w i hw hi hm =>
    have hp := placeAt?_of_getElem? hw
    rcases hi with rfl | rfl
    · exact .inr (.inr ⟨i, 0, .ended i, hp, rfl, rfl, Nat.zero_lt_two, rfl, .inr ⟨placeAt?_set hw _ _, .inr hm⟩⟩)
    · exact .inr (.inr ⟨i, 1, .ended i, hp, rfl, rfl, Nat.one_lt_two, rfl, .inr ⟨placeAt?_set hw _ _, .inr hm⟩⟩)
  | @store i r hw =>
    exact .inr (.inr ⟨i, 2, .stored i, placeAt?_of_getElem? hw, rfl, rfl, Nat.lt_add_one 2, rfl,
      .inr ⟨placeAt?_set hw _ _, .inl rfl⟩⟩)

/-- A step of a worker with an item records one event, which is of that item. -/
theorem Effect.event_of_placeAt? (h : Effect may p k fs q) {i a : Nat} (hk : p.placeAt? k = some (i, a)) :
    ∃ e, fs = [e] ∧ e.place.1 = i := by
  rcases h.progress with ⟨hk', -⟩ | ⟨hk', -⟩ | ⟨j, b, e, hk', rfl, he, -⟩
  · exact nomatch hk'.symm.trans hk
  · exact nomatch hk'.symm.trans hk
  · exact ⟨e, rfl, he.trans (Prod.mk.inj (Option.some.inj (hk'.symm.trans hk))).1⟩

theorem Effect.placeAt?_other (h : Effect may p k fs q) {l : Nat} (hl : l ≠ k) : q.placeAt? l = p.placeAt? l := by
  simp only [placeAt?, h.other hl]

theorem Effect.cursor_le (h : Effect may p k fs q) : p.cursor ≤ q.cursor := by
  rcases h.progress with ⟨-, -, -, hc, -⟩ | ⟨-, -, -, hc, -⟩ | ⟨-, -, -, -, -, -, -, hc, -⟩ <;> omega

/-- A worker with an item had it before and did not step, or has come to where its event says. -/
theorem Effect.place (h : Effect may p k fs q) {l i a : Nat} (hl : q.placeAt? l = some (i, a)) :
    (l ≠ k ∧ p.placeAt? l = some (i, a)) ∨ (l = k ∧ ∃ e ∈ fs, e.place = (i, a)) := by
  by_cases hlk : l = k
  · subst hlk
    right
    rcases h.progress with ⟨-, -, rfl, -, hq⟩ | ⟨-, -, -, -, hq⟩ | ⟨j, b, e, -, rfl, -, -, -, hq | ⟨hq, -⟩⟩
    · exact ⟨rfl, _, List.mem_singleton.2 rfl, Option.some.inj (hq.symm.trans hl)⟩
    · rw [hq] at hl
      cases hl
    · exact ⟨rfl, e, List.mem_singleton.2 rfl, Option.some.inj (hq.symm.trans hl)⟩
    · rw [hq] at hl
      cases hl
  · exact .inl ⟨hlk, h.placeAt?_other hlk ▸ hl⟩

/-- An event claims the item at the cursor, or is ahead of the worker that steps with the item. -/
theorem Effect.source (h : Effect may p k fs q) {e : Event} (he : e ∈ fs) :
    (e.place = (p.cursor, 0) ∧ p.cursor < p.slots.length ∧ q.cursor = p.cursor + 1) ∨
      ∃ a, p.placeAt? k = some (e.place.1, a) ∧ a < e.place.2 := by
  rcases h.progress with ⟨-, hc, rfl, hcur, -⟩ | ⟨-, -, rfl, -⟩ | ⟨j, b, f, hp, rfl, rfl, hlt, -⟩
  · rw [List.mem_singleton.1 he]
    exact .inl ⟨rfl, hc, hcur⟩
  · cases he
  · rw [List.mem_singleton.1 he]
    exact .inr ⟨b, hp, hlt⟩

theorem Effect.nodup (h : Effect may p k fs q) : fs.Nodup := by
  cases h <;> simp

theorem Effect.event_unique (h : Effect may p k fs q) {e f : Event} (he : e ∈ fs) (hf : f ∈ fs) : f = e := by
  cases h <;> simp_all

/-! ### What holds in every run -/

/-- Which items the workers have, and which events are behind them. -/
structure Tidy (items : Nat) (es : List Event) (p : Pool ρ) : Prop where
  length : p.slots.length = items
  /-- The items of workers are claimed. -/
  lt : ∀ k i a, p.placeAt? k = some (i, a) → i < p.cursor ∧ i < items
  /-- No two workers have one item. -/
  unique : ∀ k l i a b, p.placeAt? k = some (i, a) → p.placeAt? l = some (i, b) → k = l
  event_lt : ∀ e ∈ es, e.place.1 < p.cursor ∧ e.place.1 < items
  /-- An event of a worker's item is behind the worker. -/
  behind : ∀ e ∈ es, ∀ k a, p.placeAt? k = some (e.place.1, a) → e.place.2 ≤ a
  nodup : es.Nodup

variable {workers items : Nat}

theorem tidy_start (workers items : Nat) : Tidy items [] (start workers items : Pool ρ) := by
  have none : ∀ k, (start workers items : Pool ρ).placeAt? k = none := by
    intro k
    simp only [placeAt?, start, List.getElem?_replicate]
    split <;> rfl
  refine ⟨by simp [start], fun k i a h => ?_, fun k l i a b h => ?_, by simp, by simp, .nil⟩ <;>
    · rw [none] at h
      cases h

private theorem Tidy.source_lt (h : Tidy items es p) (hs : Effect may p k fs q) {e : Event} (he : e ∈ fs) :
    e.place.1 < q.cursor ∧ e.place.1 < items := by
  rcases hs.source he with ⟨hplace, hc, hcur⟩ | ⟨a, hk, -⟩
  · rw [hplace, hcur, ← h.length]
    exact ⟨Nat.lt_succ_self _, hc⟩
  · have := h.lt k _ a hk
    have := hs.cursor_le
    omega

/-- Nobody but the worker that steps has the item of its event. -/
private theorem Tidy.eq_of_place (h : Tidy items es p) (hs : Effect may p k fs q) {e : Event} (he : e ∈ fs) {l a : Nat}
    (hl : p.placeAt? l = some (e.place.1, a)) : l = k := by
  rcases hs.source he with ⟨hplace, -, -⟩ | ⟨b, hk, -⟩
  · have := (h.lt l _ a hl).1
    rw [hplace] at this
    exact absurd this (Nat.lt_irrefl _)
  · exact h.unique l k _ a b hl hk

/-- What is recorded of the item of a new event is of earlier stages. -/
private theorem Tidy.stage_lt (h : Tidy items es p) (hs : Effect may p k fs q) {e f : Event} (he : e ∈ fs) (hf : f ∈ es)
    (hef : f.place.1 = e.place.1) : f.place.2 < e.place.2 := by
  rcases hs.source he with ⟨hplace, -, -⟩ | ⟨a, hk, hlt⟩
  · have := (h.event_lt f hf).1
    rw [hef, hplace] at this
    exact absurd this (Nat.lt_irrefl _)
  · exact Nat.lt_of_le_of_lt (h.behind f hf k a (hef ▸ hk)) hlt

theorem Tidy.effect (h : Tidy items es p) (hs : Effect may p k fs q) : Tidy items (es ++ fs) q := by
  have hcur := hs.cursor_le
  refine ⟨hs.slots_length.trans h.length, ?_, ?_, ?_, ?_, ?_⟩
  · intro l i a hl
    rcases hs.place hl with ⟨-, hl⟩ | ⟨-, e, he, hplace⟩
    · have := h.lt l i a hl
      omega
    · have := h.source_lt hs he
      rwa [hplace] at this
  · intro l m i a b hl hm
    rcases hs.place hl with ⟨hlk, hl⟩ | ⟨rfl, e, he, hplace⟩ <;>
      rcases hs.place hm with ⟨hmk, hm⟩ | ⟨rfl, f, hf, hplace'⟩
    · exact h.unique l m i a b hl hm
    · exact absurd (h.eq_of_place hs hf (by rw [hplace']; exact hl)) hlk
    · exact absurd (h.eq_of_place hs he (by rw [hplace]; exact hm)) hmk
    · rfl
  · intro e he
    rcases List.mem_append.1 he with he | he
    · have := h.event_lt e he
      omega
    · exact h.source_lt hs he
  · intro f hf l a hl
    rcases hs.place hl with ⟨hlk, hl⟩ | ⟨rfl, e, he, hplace⟩ <;> rcases List.mem_append.1 hf with hf | hf
    · exact h.behind f hf l a hl
    · exact absurd (h.eq_of_place hs hf hl) hlk
    · -- the worker has come to the stage of its new event
      have := h.stage_lt hs he hf (by rw [hplace])
      rw [hplace] at this
      exact Nat.le_of_lt this
    · have heq : f.place.2 = a := by rw [hs.event_unique he hf, hplace]
      exact Nat.le_of_eq heq
  · refine List.nodup_append.2 ⟨h.nodup, hs.nodup, ?_⟩
    intro f hf e he hfe
    have := h.stage_lt hs he hf (by rw [hfe])
    rw [hfe] at this
    exact Nat.lt_irrefl _ this

/-- Nobody has an item that its worker has given up. -/
theorem Tidy.placeAt?_ne (h : Tidy items es p) (hs : Effect may p k fs q) {i a : Nat} (hk : p.placeAt? k = some (i, a))
    (hq : q.placeAt? k = none) (l b : Nat) : q.placeAt? l ≠ some (i, b) := by
  intro hl
  by_cases hlk : l = k
  · subst hlk
    exact nomatch hq.symm.trans hl
  · rw [hs.placeAt?_other hlk] at hl
    exact hlk (h.unique l k i b a hl hk)

theorem Run.tidy (h : Run may workers items es p) : Tidy items es p := by
  induction h with
  | start => exact tidy_start workers items
  | step _ hs ih => exact ih.effect hs.effect

theorem Run.workers_length (h : Run may workers items es p) : p.workers.length = workers := by
  induction h with
  | start => simp [Pool.start]
  | step _ hs ih => rw [hs.effect.workers_length, ih]

/-! ### The end of a run -/

/-- How much a worker has before it, apart from items that nobody has claimed. -/
def weight : Worker ρ → Nat
  | .claimed _ => 4
  | .working _ => 3
  | .holding _ _ => 2
  | .ready => 1
  | .ended => 0
  | .lost => 0

/-- A bound on the number of steps that can follow. -/
def rank (p : Pool ρ) : Nat := 4 * (p.slots.length - p.cursor) + (p.workers.map weight).sum

private theorem sum_weight_set {ws : List (Worker ρ)} {v w : Worker ρ} (h : ws[k]? = some v) :
    ((ws.set k w).map weight).sum + weight v = (ws.map weight).sum + weight w := by
  induction ws generalizing k with
  | nil => cases h
  | cons x ws ih =>
    cases k with
    | zero =>
      obtain rfl := Option.some.inj h
      simp only [List.set_cons_zero, List.map_cons, List.sum_cons]
      omega
    | succ k =>
      have := ih (k := k) h
      simp only [List.set_cons_succ, List.map_cons, List.sum_cons]
      omega

/-- Each step uses up some of the rank. -/
theorem Step.rank_lt (h : Step may p k fs q) : q.rank < p.rank := by
  have hlen := h.effect.slots_length
  simp only [rank, hlen]
  cases h.effect with
  | claim hw hc =>
    have := sum_weight_set (w := .claimed p.cursor) hw
    simp only [weight] at this ⊢
    omega
  | stop hw hc =>
    have := sum_weight_set (w := .ended) hw
    simp only [weight] at this ⊢
    omega
  | @start i hw =>
    have := sum_weight_set (w := .working i) hw
    simp only [weight] at this ⊢
    omega
  | @finish v i r hw hi =>
    have := sum_weight_set (w := .holding i r) hw
    rcases hi with rfl | rfl <;> simp only [weight] at this ⊢ <;> omega
  | lose hw hi =>
    have := sum_weight_set (w := .lost) hw
    rcases hi with rfl | rfl <;> simp only [weight] at this ⊢ <;> omega
  | store hw =>
    have := sum_weight_set (w := .ready) hw
    simp only [weight] at this ⊢
    omega

/-- Some worker is not done. -/
theorem exists_worker (h : p.isOver = false) :
    ∃ (k : Nat) (w : Worker ρ), p.workers[k]? = some w ∧ w.isOver = false := by
  obtain ⟨w, hw, hover⟩ : ∃ w ∈ p.workers, w.isOver = false := by simpa [isOver] using h
  obtain ⟨k, hk⟩ := List.mem_iff_getElem?.1 hw
  exact ⟨k, w, hk, hover⟩

/-- As long as a worker is not done, a worker can step. -/
theorem exists_step (hm : ∀ i, ∃ o, may i o) (h : p.isOver = false) : ∃ k fs q, Step may p k fs q := by
  obtain ⟨k, w, hk, hover⟩ := exists_worker h
  cases w with
  | ready => exact ⟨k, _, _, .claim (by simp only [claim?, hk]; rfl)⟩
  | claimed i => exact ⟨k, _, _, .start (openItem?_eq_some_iff.2 ⟨_, hk, .inl rfl⟩) (start?_of_claimed hk)⟩
  | working i =>
    have hi := openItem?_eq_some_iff.2 ⟨_, hk, .inr rfl⟩
    obtain ⟨_ | r, hr⟩ := hm i
    · exact ⟨k, _, _, .lose hi hr (lose?_of_openItem? hi)⟩
    · exact ⟨k, _, _, .finish hi hr (finish?_of_openItem? hi r)⟩
  | holding i r => exact ⟨k, _, _, .store hk (store?_of_holding hk)⟩
  | ended => cases hover
  | lost => cases hover

end Pool

end ScriptRunner
