import ScriptRunner.Proofs.Exec.PassRun

/-!
# Histories of a pass

The moves of a pass tell what was done for each place of its plan: which table was read there, whether a program was
called, and how the call came back.  `history` lists these deeds in the order of the moves, with the groups that were
opened and the boundary at which the pass was interrupted; `actsAt` is the part of it that belongs to one place.  A
move adds its deeds at the end (`Run.history_snoc`), and the calls of a run are those of its history (`Run.calls_eq`).
-/

namespace ScriptRunner

namespace Pass

/-- What a worker does for its member. -/
inductive Act where
  | read (table : Except TableError (Option ScriptTable))
  | called (request : Call)
  | answered (reply : Reply) (took : Duration)

/-- What a move does. -/
inductive Deed where
  /-- The run was stopping before a group. -/
  | interrupted (group : Nat)
  /-- A group was opened with so many workers. -/
  | opened (group started : Nat)
  /-- Something was done for the member at a place of the plan. -/
  | did (group item : Nat) (m : Member) (act : Act)

/-- What a worker does once it has read the table of its member. -/
def readActs (s : RunSettings) (m : Member) (table : Except TableError (Option ScriptTable)) : List Act :=
  match (opening s m table).value with
  | .settled _ => [.read table]
  | .call request => [.read table, .called request]

/-- The item and the member of a worker that has claimed or works on an item. -/
def itemAt? (group : List Member) (pool : Pool ScriptResult) (k : Nat) : Option (Nat × Member) :=
  (pool.openItem? k).bind fun i => group[i]?.map fun m => (i, m)

/-- The deeds of a move. -/
def deedsOf (s : RunSettings) (p : Pass) (move : Move) : List Deed :=
  match p.phase, move with
  | .between, .boundary stopping started _ =>
    match p.nextGroup? with
    | none => []
    | some _ => if stopping then [.interrupted p.results.length] else [.opened p.results.length started]
  | .running group pool, .start k table =>
    match itemAt? group pool k with
    | none => []
    | some (i, m) => (readActs s m table).map (.did p.results.length i m)
  | .running group pool, .finish k reply took =>
    match itemAt? group pool k with
    | none => []
    | some (i, m) => [.did p.results.length i m (.answered reply took)]
  | _, _ => []

/-- The deeds of moves, one after another. -/
def deeds (s : RunSettings) : List Move → Pass → List Deed
  | [], _ => []
  | move :: moves, p =>
    deedsOf s p move ++ match p.move? s move with
      | none => []
      | some e => deeds s moves e.1

/-- The deeds of a pass over a plan. -/
def history (s : RunSettings) (plan : Plan) (moves : List Move) : List Deed := deeds s moves { plan := plan }

/-- The act of a deed for a place. -/
def Deed.actAt? (g i : Nat) : Deed → Option Act
  | did h j _ act => if h = g ∧ j = i then some act else none
  | _ => none

/-- What was done for a place. -/
def actsAt (ds : List Deed) (g i : Nat) : List Act := ds.filterMap (Deed.actAt? g i)

/-- The call that a deed begins or ends. -/
def Deed.call? : Deed → Option CallEvent
  | did _ _ m (.called request) => some (.began m request)
  | did _ _ m (.answered reply _) => some (.ended m reply)
  | _ => none

variable {s : RunSettings} {plan : Plan} {p q : Pass} {move : Move} {moves : List Move} {calls : List CallEvent}
  {words ws : List Word} {group : List Member} {pool : Pool ScriptResult} {k i g : Nat} {m : Member}

@[simp] theorem actsAt_append (ds es : List Deed) (g i : Nat) : actsAt (ds ++ es) g i = actsAt ds g i ++ actsAt es g i :=
  List.filterMap_append

theorem mem_actsAt {ds : List Deed} {act : Act} : act ∈ actsAt ds g i ↔ ∃ m, .did g i m act ∈ ds := by
  unfold actsAt
  rw [List.mem_filterMap]
  constructor
  · rintro ⟨d, hd, h⟩
    cases d with
    | did h' j m act' =>
      obtain ⟨⟨rfl, rfl⟩, hact⟩ := Option.ite_none_right_eq_some.1 h
      exact ⟨m, Option.some.inj hact ▸ hd⟩
    | _ => cases h
  · rintro ⟨m, h⟩
    exact ⟨_, h, if_pos ⟨rfl, rfl⟩⟩

/-- What is done for one place is done for no other. -/
theorem actsAt_map_did (h j : Nat) (m : Member) (acts : List Act) :
    actsAt (acts.map (.did h j m)) g i = if h = g ∧ j = i then acts else [] := by
  unfold actsAt
  rw [List.filterMap_map]
  split
  · rename_i heq
    exact (List.filterMap_congr fun act _ => if_pos heq).trans List.filterMap_some
  · rename_i hne
    exact List.filterMap_eq_nil_iff.2 fun act _ => if_neg hne

theorem itemAt?_of_claimed (hw : pool.workers[k]? = some (.claimed i)) (hm : group[i]? = some m) :
    itemAt? group pool k = some (i, m) := by
  simp [itemAt?, Pool.openItem?_eq_some_iff.2 ⟨_, hw, .inl rfl⟩, hm]

theorem itemAt?_of_working (hw : pool.workers[k]? = some (.working i)) (hm : group[i]? = some m) :
    itemAt? group pool k = some (i, m) := by
  simp [itemAt?, Pool.openItem?_eq_some_iff.2 ⟨_, hw, .inr rfl⟩, hm]

/-- The calls of a move are those of its deeds. -/
theorem Effect.calls_eq (h : Effect s p move calls ws q) : calls = (deedsOf s p move).filterMap Deed.call? := by
  cases h with
  | conclude hp hg => simp [deedsOf, hp, hg]
  | interrupt hp hg => simp [deedsOf, hp, hg, Deed.call?]
  | openGroup hp hg => simp [deedsOf, hp, hg, Deed.call?]
  | claim hp => simp [deedsOf, hp]
  | settle hp hw hm ho => simp [deedsOf, hp, itemAt?_of_claimed hw hm, readActs, ho, Deed.call?]
  | call hp hw hm ho =>
    simp only [deedsOf, hp, itemAt?_of_claimed hw hm, readActs, ho]
    rfl
  | lose hp hw hm => simp [deedsOf, hp, itemAt?_of_working hw hm, Deed.call?]
  | finish hp hw hm => simp [deedsOf, hp, itemAt?_of_working hw hm, Deed.call?]
  | store hp => simp [deedsOf, hp]
  | close hp => simp [deedsOf, hp]

theorem deeds_append (moves moves' : List Move) (p : Pass) :
    deeds s (moves ++ moves') p = deeds s moves p ++ match play? s moves p with
      | none => []
      | some t => deeds s moves' t.1 := by
  induction moves generalizing p with
  | nil => rfl
  | cons move moves ih =>
    cases hm : p.move? s move with
    | none => simp [deeds, play?, hm]
    | some e => cases ht : play? s moves e.1 <;> simp [deeds, play?, hm, ih, ht]

/-- A move adds its deeds to the history. -/
theorem Run.history_snoc (h : Run s plan moves calls words p) (move : Move) :
    history s plan (moves ++ [move]) = history s plan moves ++ deedsOf s p move := by
  unfold history
  rw [deeds_append, run_iff_play?.1 h]
  cases hm : p.move? s move <;> simp [deeds, hm]

/-- The calls of a run are those of its history. -/
theorem Run.calls_eq (h : Run s plan moves calls words p) : calls = (history s plan moves).filterMap Deed.call? := by
  induction h with
  | start => rfl
  | move h hm ih => rw [h.history_snoc, List.filterMap_append, ← ih, (effect_of_move? hm).calls_eq]

/-- A pass is interrupted only where the run is stopping. -/
theorem Run.stopping_of_interrupted (h : Run s plan moves calls words p) {g : Nat}
    (hg : .interrupted g ∈ history s plan moves) : ∃ started elapsed, Move.boundary true started elapsed ∈ moves := by
  induction h with
  | start => simp [history, deeds] at hg
  | @move moves calls words ws p q move h hm ih =>
    rw [h.history_snoc] at hg
    rcases List.mem_append.1 hg with hg | hg
    · obtain ⟨started, elapsed, hmem⟩ := ih hg
      exact ⟨started, elapsed, List.mem_append_left _ hmem⟩
    · unfold deedsOf at hg
      split at hg
      · rename_i stopping started elapsed _ _
        split at hg
        · simp at hg
        · cases stopping with
          | true => exact ⟨started, elapsed, by simp⟩
          | false => simp at hg
      · split at hg <;> simp at hg
      · split at hg <;> simp at hg
      · simp at hg

end Pass

end ScriptRunner
