import Mathlib.Data.List.Induction
import ScriptRunner.Exec.Pass
import ScriptRunner.Proofs.Exec.PoolSteps

/-!
# Runs of a pass

`Pass.Run` is any number of moves of a pass, in any order that `Pass.move?` admits, with the program calls that the
moves begin and end.  `Pass.Effect` says once what a move does.  While a group runs, a move is a step of its pool or
closes the group (`Effect.running`).  A run is determined by its moves, and can be played from them (`run_iff_play?`).
-/

namespace ScriptRunner

namespace Pass

/-- What happens to the program call of a member. -/
inductive CallEvent where
  | began (m : Member) (request : Call)
  | ended (m : Member) (reply : Reply)
  deriving DecidableEq, Repr

/-- The member whose call begins. -/
def CallEvent.begun? : CallEvent → Option Member
  | .began m _ => some m
  | .ended _ _ => none

/-- The calls that a move begins or ends. -/
def callsOf (s : RunSettings) (p : Pass) : Move → List CallEvent
  | .start k table =>
    match p.memberAt? k with
    | none => []
    | some m =>
      match (opening s m table).value with
      | .settled _ => []
      | .call request => [.began m request]
  | .finish k reply _ => ((p.memberAt? k).map fun m => CallEvent.ended m reply).toList
  | _ => []

/-- The states that moves lead to from the start of a pass, with the calls and the words on the way. -/
inductive Run (s : RunSettings) (plan : Plan) : List Move → List CallEvent → List Word → Pass → Prop
  | start : Run s plan [] [] [] { plan := plan }
  | move {moves : List Move} {calls : List CallEvent} {words ws : List Word} {p q : Pass} {move : Move}
    (h : Run s plan moves calls words p) (hm : p.move? s move = some (q, ws)) :
    Run s plan (moves ++ [move]) (calls ++ p.callsOf s move) (words ++ ws) q

/-! ### One move -/

/-- What a move does. -/
inductive Effect (s : RunSettings) (p : Pass) : Move → List CallEvent → List Word → Pass → Prop
  | conclude {stopping : Bool} {started : Nat} {elapsed : Duration} (hp : p.phase = .between)
    (hg : p.nextGroup? = none) :
    Effect s p (.boundary stopping started elapsed) [] (p.conclude s elapsed).2 { p with phase := .finished }
  | interrupt {started : Nat} {elapsed : Duration} {group : List Member} (hp : p.phase = .between)
    (hg : p.nextGroup? = some group) :
    Effect s p (.boundary true started elapsed) []
      (.entry ⟨.warn, "run interrupted; later groups not started",
        [("remaining", .number (p.plan.groups.length - p.results.length))]⟩ :: (p.conclude s elapsed).2)
      { p with phase := .finished }
  | openGroup {started : Nat} {elapsed : Duration} {group : List Member} (hp : p.phase = .between)
    (hg : p.nextGroup? = some group) :
    Effect s p (.boundary false started elapsed) [] (p.openGroup s group started).2 (p.openGroup s group started).1
  | claim {k : Nat} {group : List Member} {pool pool' : Pool ScriptResult} (hp : p.phase = .running group pool)
    (h : pool.claim? k = some pool') : Effect s p (.claim k) [] [] { p with phase := .running group pool' }
  | settle {k i : Nat} {table : Except TableError (Option ScriptTable)} {group : List Member}
    {pool : Pool ScriptResult} {m : Member} {r : ScriptResult} (hp : p.phase = .running group pool)
    (hw : pool.workers[k]? = some (.claimed i)) (hm : group[i]? = some m)
    (ho : (opening s m table).value = .settled r) :
    Effect s p (.start k table) [] ((opening s m table).entries.map Word.entry)
      { p with phase := .running group (pool.setWorker k (.holding i r)) }
  | call {k i : Nat} {table : Except TableError (Option ScriptTable)} {group : List Member}
    {pool : Pool ScriptResult} {m : Member} {request : Call} (hp : p.phase = .running group pool)
    (hw : pool.workers[k]? = some (.claimed i)) (hm : group[i]? = some m)
    (ho : (opening s m table).value = .call request) :
    Effect s p (.start k table) [.began m request] ((opening s m table).entries.map Word.entry)
      { p with phase := .running group (pool.setWorker k (.working i)) }
  | lose {k i : Nat} {reply : Reply} {took : Duration} {group : List Member} {pool : Pool ScriptResult} {m : Member}
    (hp : p.phase = .running group pool) (hw : pool.workers[k]? = some (.working i)) (hm : group[i]? = some m)
    (hc : (closing s m reply took).value = none) :
    Effect s p (.finish k reply took) [.ended m reply] ((closing s m reply took).entries.map Word.entry)
      { p with phase := .running group (pool.setWorker k .lost) }
  | finish {k i : Nat} {reply : Reply} {took : Duration} {group : List Member} {pool : Pool ScriptResult} {m : Member}
    {r : ScriptResult} (hp : p.phase = .running group pool) (hw : pool.workers[k]? = some (.working i))
    (hm : group[i]? = some m) (hc : (closing s m reply took).value = some r) :
    Effect s p (.finish k reply took) [.ended m reply] ((closing s m reply took).entries.map Word.entry)
      { p with phase := .running group (pool.setWorker k (.holding i r)) }
  | store {k i : Nat} {group : List Member} {pool pool' : Pool ScriptResult} {r : ScriptResult}
    (hp : p.phase = .running group pool) (hw : pool.workers[k]? = some (.holding i r))
    (h : pool.store? k = some pool') : Effect s p (.store k) [] [] { p with phase := .running group pool' }
  | close {group : List Member} {pool : Pool ScriptResult} (hp : p.phase = .running group pool)
    (hover : pool.isOver = true) :
    Effect s p .close []
      ((pool.workers.filter fun w => match w with | .lost => true | _ => false).map
        (fun _ => Word.entry ⟨.warn, "worker thread panicked", []⟩) ++ resultEvents (resultsOf group pool.slots))
      { p with phase := .between, results := p.results ++ [resultsOf group pool.slots] }

variable {s : RunSettings} {plan : Plan} {p q : Pass} {move : Move} {moves : List Move} {calls : List CallEvent}
  {words ws : List Word}

theorem memberAt?_of_claimed {k i : Nat} {group : List Member} {pool : Pool ScriptResult}
    (hp : p.phase = .running group pool) (hw : pool.workers[k]? = some (.claimed i)) :
    p.memberAt? k = group[i]? := by
  simp only [memberAt?, hp, hw]

theorem memberAt?_of_working {k i : Nat} {group : List Member} {pool : Pool ScriptResult}
    (hp : p.phase = .running group pool) (hw : pool.workers[k]? = some (.working i)) :
    p.memberAt? k = group[i]? := by
  simp only [memberAt?, hp, hw]

theorem effect_of_move? (h : p.move? s move = some (q, ws)) : Effect s p move (p.callsOf s move) ws q := by
  unfold move? at h
  split at h
  · rename_i stopping started elapsed hp
    split at h
    · rename_i hg
      obtain ⟨rfl, rfl⟩ := Prod.mk.inj (Option.some.inj h)
      exact .conclude hp hg
    · rename_i group hg
      cases stopping with
      | true =>
        obtain ⟨rfl, rfl⟩ := Prod.mk.inj (Option.some.inj h)
        exact .interrupt hp hg
      | false =>
        obtain ⟨rfl, rfl⟩ := Prod.mk.inj (Option.some.inj h)
        exact .openGroup hp hg
  · rename_i hp
    obtain ⟨pool', hc, hq⟩ := Option.map_eq_some_iff.1 h
    obtain ⟨rfl, rfl⟩ := Prod.mk.inj hq
    exact .claim hp hc
  · rename_i group pool k table hp
    split at h
    · rename_i i m hw hm
      have hi : group[i]? = some m := memberAt?_of_claimed hp hw ▸ hm
      dsimp only at h
      split at h
      · rename_i r ho
        rw [Pool.finish?_of_openItem? (Pool.openItem?_eq_some_iff.2 ⟨_, hw, .inl rfl⟩)] at h
        obtain ⟨rfl, rfl⟩ := Prod.mk.inj (Option.some.inj h)
        simp only [callsOf, hm, ho]
        exact .settle hp hw hi ho
      · rename_i request ho
        rw [Pool.start?_of_claimed hw] at h
        obtain ⟨rfl, rfl⟩ := Prod.mk.inj (Option.some.inj h)
        simp only [callsOf, hm, ho]
        exact .call hp hw hi ho
    · cases h
  · rename_i group pool k reply took hp
    split at h
    · rename_i i m hw hm
      have hi : group[i]? = some m := memberAt?_of_working hp hw ▸ hm
      have hopen := Pool.openItem?_eq_some_iff.2 ⟨_, hw, .inr rfl⟩
      dsimp only at h
      split at h
      · rename_i hc
        rw [Pool.lose?_of_openItem? hopen] at h
        obtain ⟨rfl, rfl⟩ := Prod.mk.inj (Option.some.inj h)
        simp only [callsOf, hm]
        exact .lose hp hw hi hc
      · rename_i r hc
        rw [Pool.finish?_of_openItem? hopen] at h
        obtain ⟨rfl, rfl⟩ := Prod.mk.inj (Option.some.inj h)
        simp only [callsOf, hm]
        exact .finish hp hw hi hc
    · cases h
  · rename_i group pool k hp
    obtain ⟨pool', hs, hq⟩ := Option.map_eq_some_iff.1 h
    obtain ⟨rfl, rfl⟩ := Prod.mk.inj hq
    have hs' := hs
    unfold Pool.store? at hs'
    split at hs'
    · rename_i i r hw
      exact .store hp hw hs
    · cases hs'
  · rename_i group pool hp
    split at h
    · rename_i hover
      obtain ⟨rfl, rfl⟩ := Prod.mk.inj (Option.some.inj h)
      exact .close hp hover
    · cases h
  · cases h

theorem Effect.plan_eq (h : Effect s p move calls ws q) : q.plan = p.plan := by
  cases h with
  | openGroup =>
    unfold Pass.openGroup
    split
    · rfl
    · split <;> rfl
  | _ => rfl

theorem Run.plan_eq (h : Run s plan moves calls words p) : p.plan = plan := by
  induction h with
  | start => rfl
  | move _ hm ih => exact (effect_of_move? hm).plan_eq.trans ih

/-! ### Runs from their moves -/

/-- Makes moves one after another, and collects the calls and the words. -/
def play? (s : RunSettings) : List Move → Pass → Option (Pass × List CallEvent × List Word)
  | [], p => some (p, [], [])
  | move :: moves, p =>
    (p.move? s move).bind fun e =>
      (play? s moves e.1).map fun t => (t.1, p.callsOf s move ++ t.2.1, e.2 ++ t.2.2)

theorem play?_snoc (moves : List Move) (move : Move) (p : Pass) :
    play? s (moves ++ [move]) p =
      (play? s moves p).bind fun t =>
        (t.1.move? s move).map fun e => (e.1, t.2.1 ++ t.1.callsOf s move, t.2.2 ++ e.2) := by
  induction moves generalizing p with
  | nil => cases hm : p.move? s move <;> simp [play?, hm]
  | cons m moves ih =>
    cases hm : p.move? s m with
    | none => simp [play?, hm]
    | some e => cases ht : play? s moves e.1 <;> simp [play?, hm, ih, ht, Function.comp_def]

/-- A run is determined by its moves. -/
theorem run_iff_play? : Run s plan moves calls words p ↔ play? s moves { plan := plan } = some (p, calls, words) := by
  refine ⟨fun h => ?_, fun h => ?_⟩
  · induction h with
    | start => rfl
    | move _ hm ih => simp [play?_snoc, ih, hm]
  · induction moves using List.reverseRecOn generalizing p calls words with
    | nil =>
      obtain ⟨rfl, rfl, rfl⟩ : { plan := plan } = p ∧ [] = calls ∧ [] = words := by simpa [play?] using h
      exact .start
    | append_singleton moves move ih =>
      rw [play?_snoc] at h
      obtain ⟨⟨q, cs, vs⟩, hq, h⟩ := Option.bind_eq_some_iff.1 h
      obtain ⟨⟨r, ws⟩, hm, h⟩ := Option.map_eq_some_iff.1 h
      obtain ⟨rfl, rfl, rfl⟩ : r = p ∧ cs ++ q.callsOf s move = calls ∧ vs ++ ws = words := by simpa using h
      exact (ih hq).move hm

/-! ### Moves within a group -/

/-- The calls that go with a step of worker `k` in the pool of a group. -/
inductive PoolCalls (group : List Member) (pool : Pool ScriptResult) (k : Nat) :
    List Pool.Event → List CallEvent → Prop
  | quiet {fs : List Pool.Event} (hw : ∀ i : Nat, pool.workers[k]? ≠ some (.working i)) (hfs : ∀ i, .began i ∉ fs) :
    PoolCalls group pool k fs []
  | began {i : Nat} {m : Member} {request : Call} (hm : group[i]? = some m) :
    PoolCalls group pool k [.began i] [.began m request]
  | ended {i : Nat} {m : Member} {reply : Reply} (hw : pool.workers[k]? = some (.working i))
    (hm : group[i]? = some m) : PoolCalls group pool k [.ended i] [.ended m reply]

variable {group : List Member} {pool : Pool ScriptResult}

/-- A move in a group is a step of the pool, or closes the group. -/
theorem Effect.running (h : Effect s p move calls ws q) (hp : p.phase = .running group pool) :
    (∃ k fs pool', Pool.Step (fun _ _ => True) pool k fs pool' ∧ PoolCalls group pool k fs calls ∧
        q = { p with phase := .running group pool' }) ∨
      (pool.isOver = true ∧ calls = [] ∧
        q = { p with phase := .between, results := p.results ++ [resultsOf group pool.slots] }) := by
  cases h with
  | conclude hp' | interrupt hp' | openGroup hp' => simp [hp] at hp'
  | @claim k _ _ _ hp' hc =>
    obtain ⟨rfl, rfl⟩ := Phase.running.inj (hp'.symm.trans hp)
    have hstep : Pool.Step (fun _ _ => True) _ k _ _ := .claim hc
    refine .inl ⟨_, _, _, hstep, .quiet (fun i hw => ?_) (fun i => ?_), rfl⟩
    · simp [Pool.claim?, hw] at hc
    · split <;> simp
  | @settle k i _ _ _ _ _ hp' hw hm =>
    obtain ⟨rfl, rfl⟩ := Phase.running.inj (hp'.symm.trans hp)
    have hopen := Pool.openItem?_eq_some_iff.2 ⟨_, hw, .inl rfl⟩
    exact .inl ⟨k, [.ended i], _, .finish hopen trivial (Pool.finish?_of_openItem? hopen _),
      .quiet (by simp [hw]) (by simp), rfl⟩
  | @call k i _ _ _ _ _ hp' hw hm =>
    obtain ⟨rfl, rfl⟩ := Phase.running.inj (hp'.symm.trans hp)
    have hopen := Pool.openItem?_eq_some_iff.2 ⟨_, hw, .inl rfl⟩
    exact .inl ⟨k, [.began i], _, .start hopen (Pool.start?_of_claimed hw), .began hm, rfl⟩
  | @lose k i _ _ _ _ _ hp' hw hm =>
    obtain ⟨rfl, rfl⟩ := Phase.running.inj (hp'.symm.trans hp)
    have hopen := Pool.openItem?_eq_some_iff.2 ⟨_, hw, .inr rfl⟩
    exact .inl ⟨k, [.ended i], _, .lose hopen trivial (Pool.lose?_of_openItem? hopen), .ended hw hm, rfl⟩
  | @finish k i _ _ _ _ _ _ hp' hw hm =>
    obtain ⟨rfl, rfl⟩ := Phase.running.inj (hp'.symm.trans hp)
    have hopen := Pool.openItem?_eq_some_iff.2 ⟨_, hw, .inr rfl⟩
    exact .inl ⟨k, [.ended i], _, .finish hopen trivial (Pool.finish?_of_openItem? hopen _), .ended hw hm, rfl⟩
  | @store k i _ _ _ _ hp' hw hs =>
    obtain ⟨rfl, rfl⟩ := Phase.running.inj (hp'.symm.trans hp)
    exact .inl ⟨k, [.stored i], _, .store hw hs, .quiet (by simp [hw]) (by simp), rfl⟩
  | close hp' hover =>
    obtain ⟨rfl, rfl⟩ := Phase.running.inj (hp'.symm.trans hp)
    exact .inr ⟨hover, rfl, rfl⟩

end Pass

end ScriptRunner
