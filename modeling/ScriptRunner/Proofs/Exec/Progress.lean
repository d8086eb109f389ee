import ScriptRunner.Proofs.Exec.Account

/-!
# The end of a pass

Every move of a pass uses up some of its rank, unless more workers are opened for a group than it has members
(`Effect.rank_lt`), so that the rank bounds the moves of a run (`Run.length_add_rank_le`).  A pass that is not over can
make a move, whatever tables are read and whatever is answered (`Account.exists_move`).
-/

namespace ScriptRunner

/-- A bound on the moves of a pass over the plan. -/
def Plan.span (plan : Plan) : Nat := 1 + (plan.groups.map fun group => 5 * group.length + 2).sum

namespace Pass

variable {s : RunSettings} {plan : Plan} {p q : Pass} {move : Move} {moves : List Move} {calls : List CallEvent}
  {words ws : List Word} {group : List Member} {pool : Pool ScriptResult} {ds : List Deed}

/-- A bound on the moves that the groups from `g` on take. -/
def costFrom (plan : Plan) (g : Nat) : Nat := ((plan.groups.drop g).map fun group => 5 * group.length + 2).sum

/-- A bound on the moves that can follow. -/
def rank (p : Pass) : Nat :=
  match p.phase with
  | .between => 1 + costFrom p.plan p.results.length
  | .running _ pool => pool.rank + 2 + costFrom p.plan (p.results.length + 1)
  | .finished => 0

theorem costFrom_of_getElem? {g : Nat} (h : plan.groups[g]? = some group) :
    costFrom plan g = 5 * group.length + 2 + costFrom plan (g + 1) := by
  obtain ⟨hg, rfl⟩ := List.getElem?_eq_some_iff.1 h
  rw [costFrom, List.drop_eq_getElem_cons hg, List.map_cons, List.sum_cons, costFrom]

theorem rank_start (started items : Nat) : (Pool.start started items : Pool ScriptResult).rank = 4 * items + started := by
  simp [Pool.start, Pool.rank, Pool.weight]

/-- No group with members is opened with more workers than it has members. -/
def Crewed (p : Pass) (move : Move) : Prop :=
  ∀ started elapsed group, move = .boundary false started elapsed → p.nextGroup? = some group → group ≠ [] →
    started ≤ group.length

theorem rank_openGroup (hp : p.phase = .between) (hg : p.nextGroup? = some group) {started : Nat}
    (hs : group ≠ [] → started ≤ group.length) : (p.openGroup s group started).1.rank < p.rank := by
  have hcost := costFrom_of_getElem? hg
  -- a group that is over at once gives up all of its cost
  have hskip : ∀ rs, rank { p with results := p.results ++ [rs] } < p.rank := by
    intro rs
    simp only [rank, hp, List.length_append, List.length_singleton]
    omega
  unfold Pass.openGroup
  dsimp only
  split
  · exact hskip []
  · rename_i hne
    have hle := hs (by simpa using hne)
    split
    · exact hskip _
    · simp only [rank, hp, rank_start]
      omega

/-- Each move uses up some of the rank. -/
theorem Effect.rank_lt (h : Effect s p move calls ws q) (hc : Crewed p move) : q.rank < p.rank := by
  cases hp : p.phase with
  | between =>
    cases h with
    | conclude | interrupt =>
      simp only [rank, hp]
      omega
    | openGroup _ hg => exact rank_openGroup hp hg (hc _ _ _ rfl hg)
    | claim hp' | settle hp' | call hp' | lose hp' | finish hp' | store hp' | close hp' => exact nomatch hp.symm.trans hp'
  | running group pool =>
    -- a step of the pool uses up rank of the pool; the close of the group is worth two
    rcases h.running hp with ⟨k, fs, pool', hs, -, rfl⟩ | ⟨-, -, rfl⟩
    · have := hs.rank_lt
      simp only [rank, hp]
      omega
    · simp only [rank, hp, List.length_append, List.length_singleton]
      omega
  | finished =>
    cases h with
    | conclude hp' | interrupt hp' | openGroup hp' | claim hp' | settle hp' | call hp' | lose hp' | finish hp'
    | store hp' | close hp' => exact nomatch hp.symm.trans hp'

/-- A pass is over after so many moves, unless more workers are opened for a group than it has members. -/
theorem Run.length_add_rank_le (h : Run s plan moves calls words p)
    (hc : ∀ g started group, .opened g started ∈ history s plan moves → plan.groups[g]? = some group → group ≠ [] →
      started ≤ group.length) : moves.length + p.rank ≤ plan.span := by
  induction h with
  | start => simp [rank, costFrom, Plan.span]
  | @move moves calls words ws p q move h hm ih =>
    rw [h.history_snoc] at hc
    have hle := ih fun g started group hd => hc g started group (List.mem_append_left _ hd)
    have hcrewed : Crewed p move := by
      rintro started elapsed group rfl hg hne
      cases effect_of_move? hm with
      | conclude _ hnone => exact nomatch hg.symm.trans hnone
      | openGroup hp => exact hc p.results.length started group (by simp [deedsOf, hp, hg]) (h.plan_eq ▸ hg) hne
    have hlt := (effect_of_move? hm).rank_lt hcrewed
    rw [List.length_append, List.length_singleton]
    omega

/-! ### What a pass can do -/

variable {k i a : Nat} {m : Member} {w : Worker ScriptResult}

theorem exists_boundary (hp : p.phase = .between) (stopping : Bool) (started : Nat) (elapsed : Duration) :
    ∃ q ws, p.move? s (.boundary stopping started elapsed) = some (q, ws) := by
  cases hg : p.nextGroup? with
  | none => exact ⟨_, _, by simp only [move?, hp, hg]; rfl⟩
  | some group => cases stopping <;> exact ⟨_, _, by simp only [move?, hp, hg]; rfl⟩

theorem exists_claim (hp : p.phase = .running group pool) (hw : pool.workers[k]? = some .ready) :
    ∃ q, p.move? s (.claim k) = some (q, []) :=
  ⟨_, by simp only [move?, hp, Pool.claim?, hw]; rfl⟩

theorem exists_start (hp : p.phase = .running group pool) (hw : pool.workers[k]? = some (.claimed i))
    (hm : group[i]? = some m) (table : Except TableError (Option ScriptTable)) :
    ∃ q ws, p.move? s (.start k table) = some (q, ws) := by
  have hmember : p.memberAt? k = some m := (memberAt?_of_claimed hp hw).trans hm
  have hopen := Pool.openItem?_eq_some_iff.2 ⟨_, hw, .inl rfl⟩
  simp only [move?, hp, hw, hmember]
  cases (opening s m table).value with
  | settled r => exact ⟨_, _, by simp only [Pool.finish?_of_openItem? hopen]; rfl⟩
  | call request => exact ⟨_, _, by simp only [Pool.start?_of_claimed hw]; rfl⟩

theorem exists_finish (hp : p.phase = .running group pool) (hw : pool.workers[k]? = some (.working i))
    (hm : group[i]? = some m) (reply : Reply) (took : Duration) :
    ∃ q ws, p.move? s (.finish k reply took) = some (q, ws) := by
  have hmember : p.memberAt? k = some m := (memberAt?_of_working hp hw).trans hm
  have hopen := Pool.openItem?_eq_some_iff.2 ⟨_, hw, .inr rfl⟩
  simp only [move?, hp, hw, hmember]
  cases (closing s m reply took).value with
  | none => exact ⟨_, _, by simp only [Pool.lose?_of_openItem? hopen]; rfl⟩
  | some r => exact ⟨_, _, by simp only [Pool.finish?_of_openItem? hopen]; rfl⟩

theorem exists_store {r : ScriptResult} (hp : p.phase = .running group pool)
    (hw : pool.workers[k]? = some (.holding i r)) : ∃ q, p.move? s (.store k) = some (q, []) :=
  ⟨_, by simp only [move?, hp, Pool.store?_of_holding hw]; rfl⟩

theorem exists_close (hp : p.phase = .running group pool) (hover : pool.isOver = true) :
    ∃ q ws, p.move? s .close = some (q, ws) :=
  ⟨_, _, by simp only [move?, hp, hover, if_true]; rfl⟩

/-- The item of a worker is a member of the group that runs. -/
theorem Account.exists_item (h : Account s p ds) (hp : p.phase = .running group pool) (hw : pool.workers[k]? = some w)
    (hi : w.place? = some (i, a)) : ∃ m, group[i]? = some m := by
  cases h.ongoing with
  | idle hidle => exact absurd hp (hidle _ _)
  | running hp' _ _ _ hl =>
    obtain ⟨rfl, rfl⟩ := Phase.running.inj (hp.symm.trans hp')
    obtain ⟨es, htidy⟩ := hl.tidy
    exact ⟨_, List.getElem?_eq_getElem (htidy.lt k i a ((Pool.placeAt?_of_getElem? hw).trans hi)).2⟩

/-- A pass that is not over can make a move, and one with admissible deeds if there is an admissible crew for the next
group, an admissible table and an admissible answer for every member. -/
theorem Account.exists_move {P : Deed → Prop} (h : Account s p ds) (hf : p.phase ≠ .finished)
    (hcrew : ∀ group, p.nextGroup? = some group → ∃ started, P (.opened p.results.length started))
    (htable : ∀ g i m, ∃ table, P (.did g i m (.read table))) (hcall : ∀ g i m request, P (.did g i m (.called request)))
    (hanswer : ∀ g i m, ∃ reply took, P (.did g i m (.answered reply took))) :
    ∃ move q ws, p.move? s move = some (q, ws) ∧ ∀ d ∈ deedsOf s p move, P d := by
  cases hp : p.phase with
  | finished => exact absurd hp hf
  | between =>
    cases hg : p.nextGroup? with
    | none =>
      obtain ⟨q, ws, hmove⟩ := exists_boundary (s := s) hp false 0 ⟨0⟩
      exact ⟨_, q, ws, hmove, by simp [deedsOf, hp, hg]⟩
    | some group =>
      obtain ⟨started, hs⟩ := hcrew group hg
      obtain ⟨q, ws, hmove⟩ := exists_boundary (s := s) hp false started ⟨0⟩
      exact ⟨_, q, ws, hmove, by simpa [deedsOf, hp, hg] using hs⟩
  | running group pool =>
    cases hover : pool.isOver with
    | true =>
      obtain ⟨q, ws, hmove⟩ := exists_close (s := s) hp hover
      exact ⟨_, q, ws, hmove, by simp [deedsOf, hp]⟩
    | false =>
      obtain ⟨k, w, hk, hwover⟩ := Pool.exists_worker hover
      cases w with
      | ready =>
        obtain ⟨q, hmove⟩ := exists_claim (s := s) hp hk
        exact ⟨_, q, [], hmove, by simp [deedsOf, hp]⟩
      | claimed i =>
        obtain ⟨m, hm⟩ := h.exists_item hp hk rfl
        obtain ⟨table, ht⟩ := htable p.results.length i m
        obtain ⟨q, ws, hmove⟩ := exists_start (s := s) hp hk hm table
        refine ⟨_, q, ws, hmove, ?_⟩
        simp only [deedsOf, hp, itemAt?_of_claimed hk hm, readActs]
        cases (opening s m table).value <;> simp [ht, hcall]
      | working i =>
        obtain ⟨m, hm⟩ := h.exists_item hp hk rfl
        obtain ⟨reply, took, ha⟩ := hanswer p.results.length i m
        obtain ⟨q, ws, hmove⟩ := exists_finish (s := s) hp hk hm reply took
        exact ⟨_, q, ws, hmove, by simpa [deedsOf, hp, itemAt?_of_working hk hm] using ha⟩
      | holding i r =>
        obtain ⟨q, hmove⟩ := exists_store (s := s) hp hk
        exact ⟨_, q, [], hmove, by simp [deedsOf, hp]⟩
      | ended => cases hwover
      | lost => cases hwover

end Pass

end ScriptRunner
