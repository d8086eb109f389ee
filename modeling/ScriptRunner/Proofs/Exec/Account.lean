import ScriptRunner.Proofs.Exec.Ledger
import ScriptRunner.Proofs.Exec.Places

/-!
# The account of a pass

Whatever the schedule, the history of a pass accounts for its results: each group that is over has a result for each
of its members, and what was done for the member says which one (`Account`).  What was done for a place of the plan was
done while its group ran.  A pass is over when no group is left, or when it was interrupted before a group.
-/

namespace ScriptRunner

namespace Pass

variable {s : RunSettings} {plan : Plan} {p q : Pass} {move : Move} {moves : List Move} {calls cs : List CallEvent}
  {words ws : List Word} {group : List Member} {pool pool' : Pool ScriptResult} {ds es : List Deed}

/-- What was done since the last group closed. -/
inductive Ongoing (s : RunSettings) (p : Pass) (ds : List Deed) : Prop
  | idle (hp : ∀ group pool, p.phase ≠ .running group pool) (ha : ∀ i, actsAt ds p.results.length i = [])
  | running {group : List Member} {pool : Pool ScriptResult} {started : Nat} (hp : p.phase = .running group pool)
    (hg : p.nextGroup? = some group) (hs : 0 < started) (ho : .opened p.results.length started ∈ ds)
    (hl : Ledger s group pool (actsAt ds p.results.length))

/-- The history of a pass, against its results. -/
structure Account (s : RunSettings) (p : Pass) (ds : List Deed) : Prop where
  closed : ∀ (g : Nat) rs, p.results[g]? = some rs → ∃ group started, p.plan.groups[g]? = some group ∧
    .opened g started ∈ ds ∧ GroupDone s group (actsAt ds g) started rs
  ongoing : Ongoing s p ds
  later : ∀ g, p.results.length < g → ∀ i, actsAt ds g i = []
  ended : p.phase = .finished → p.nextGroup? = none ∨ .interrupted p.results.length ∈ ds
  places : ∀ g i m act, .did g i m act ∈ ds → p.plan.At g i m

theorem account_start (s : RunSettings) (plan : Plan) : Account s { plan := plan } [] where
  closed _ _ h := by simp at h
  ongoing := .idle (by simp) fun _ => rfl
  later _ _ _ := rfl
  ended h := by simp at h
  places _ _ _ _ h := by simp at h

theorem actsAt_eq_of_did {g h : Nat} (hgh : g ≠ h) (hes : ∀ d ∈ es, ∃ i m act, d = .did h i m act) (i : Nat) :
    actsAt (ds ++ es) g i = actsAt ds g i := by
  rw [actsAt_append]
  refine (congrArg _ (List.filterMap_eq_nil_iff.2 fun d hd => ?_)).trans (List.append_nil _)
  obtain ⟨j, m, act, rfl⟩ := hes d hd
  exact if_neg fun h' => hgh h'.1.symm

theorem actsAt_update (ds : List Deed) (g j : Nat) (m : Member) (new : List Act) :
    actsAt (ds ++ new.map (.did g j m)) g = Function.update (actsAt ds g) j (actsAt ds g j ++ new) := by
  funext i
  rw [actsAt_append, actsAt_map_did]
  by_cases h : i = j
  · subst h
    rw [Function.update_self, if_pos ⟨rfl, rfl⟩]
  · rw [Function.update_of_ne h, if_neg fun h' => h h'.2.symm, List.append_nil]

/-- A step in the pool of the group that runs. -/
theorem Account.step (h : Account s p ds) (hp : p.phase = .running group pool)
    (hes : ∀ d ∈ es, ∃ i m act, d = .did p.results.length i m act ∧ group[i]? = some m)
    (hl : Ledger s group pool (actsAt ds p.results.length) →
      Ledger s group pool' (actsAt (ds ++ es) p.results.length)) :
    Account s { p with phase := .running group pool' } (ds ++ es) := by
  have hdid : ∀ d ∈ es, ∃ i m act, d = .did p.results.length i m act :=
    fun d hd => let ⟨i, m, act, hd, _⟩ := hes d hd; ⟨i, m, act, hd⟩
  cases h.ongoing with
  | idle hidle => exact absurd hp (hidle _ _)
  | running hp' hg hs ho hledger =>
    obtain ⟨rfl, rfl⟩ := Phase.running.inj (hp'.symm.trans hp)
    refine ⟨fun g rs hrs => ?_, .running rfl hg hs (List.mem_append_left _ ho) (hl hledger), fun g hg i => ?_,
      nofun, fun g i m act hd => ?_⟩
    · obtain ⟨group, started, hgroup, hopened, hdone⟩ := h.closed g rs hrs
      have hne : g ≠ p.results.length := Nat.ne_of_lt (List.getElem?_eq_some_iff.1 hrs).1
      have hacts : actsAt (ds ++ es) g = actsAt ds g := funext (actsAt_eq_of_did hne hdid)
      rw [← hacts] at hdone
      exact ⟨group, started, hgroup, List.mem_append_left _ hopened, hdone⟩
    · rw [actsAt_eq_of_did (Nat.ne_of_gt hg) hdid]
      exact h.later g hg i
    · rcases List.mem_append.1 hd with hd | hd
      · exact h.places g i m act hd
      · obtain ⟨j, m', act', heq, hm⟩ := hes _ hd
        obtain ⟨rfl, rfl, rfl, rfl⟩ := Deed.did.inj heq
        exact ⟨_, hg, hm⟩

/-- A deed that is for no place. -/
theorem Account.note (h : Account s p ds) {d : Deed} (hd : ∀ g i, d.actAt? g i = none) : Account s p (ds ++ [d]) := by
  have hacts : actsAt (ds ++ [d]) = actsAt ds := by
    funext g i
    rw [actsAt_append]
    simp [actsAt, hd]
  refine ⟨fun g rs hrs => ?_, ?_, fun g hg i => hacts ▸ h.later g hg i,
    fun hf => (h.ended hf).imp_right (List.mem_append_left _), fun g i m act hmem => ?_⟩
  · obtain ⟨group, started, hgroup, hopened, hdone⟩ := h.closed g rs hrs
    exact ⟨group, started, hgroup, List.mem_append_left _ hopened, hacts ▸ hdone⟩
  · cases h.ongoing with
    | idle hp ha => exact .idle hp (hacts ▸ ha)
    | running hp hg hs ho hl => exact .running hp hg hs (List.mem_append_left _ ho) (hacts ▸ hl)
  · rcases List.mem_append.1 hmem with hmem | hmem
    · exact h.places g i m act hmem
    · have hact := hd g i
      rw [← List.mem_singleton.1 hmem] at hact
      simp [Deed.actAt?] at hact

/-- A group is over. -/
theorem Account.close (h : Account s p ds) {started : Nat} {rs : List ScriptResult} (hg : p.nextGroup? = some group)
    (ho : .opened p.results.length started ∈ ds) (hd : GroupDone s group (actsAt ds p.results.length) started rs) :
    Account s { p with phase := .between, results := p.results ++ [rs] } ds := by
  have hlen : (p.results ++ [rs]).length = p.results.length + 1 := List.length_append
  refine ⟨fun g rs' hrs => ?_, .idle (by simp) fun i => ?_, fun g hg i => ?_, nofun, h.places⟩
  · rw [List.getElem?_append] at hrs
    split at hrs
    · exact h.closed g rs' hrs
    · rw [List.getElem?_singleton] at hrs
      split at hrs
      · obtain rfl := Option.some.inj hrs
        obtain rfl : g = p.results.length := by omega
        exact ⟨group, started, hg, ho, hd⟩
      · cases hrs
  · exact h.later _ (hlen ▸ Nat.lt_succ_self _) i
  · exact h.later g (Nat.lt_of_succ_lt (lt_of_eq_of_lt hlen.symm hg)) i

/-- The end of a pass. -/
theorem Account.finish (h : Account s p ds) (hp : p.phase = .between)
    (he : p.nextGroup? = none ∨ .interrupted p.results.length ∈ ds) : Account s { p with phase := .finished } ds := by
  refine ⟨h.closed, ?_, h.later, fun _ => he, h.places⟩
  cases h.ongoing with
  | idle _ ha => exact .idle (by simp) ha
  | running hp' => exact nomatch hp.symm.trans hp'

/-- A group is opened, and over at once if it is empty or has no worker. -/
theorem Account.openGroup (h : Account s p ds) (hp : p.phase = .between) (hg : p.nextGroup? = some group)
    {started : Nat} (ho : .opened p.results.length started ∈ ds) : Account s (p.openGroup s group started).1 ds := by
  -- nothing has been done for the group so far
  have hidle : ∀ i, actsAt ds p.results.length i = [] := by
    cases h.ongoing with
    | idle _ ha => exact ha
    | running hp' => exact nomatch hp.symm.trans hp'
  have skip : ∀ {rs}, GroupDone s group (actsAt ds p.results.length) started rs →
      Account s { p with results := p.results ++ [rs] } ds := by
    intro rs hd
    have hclose := h.close hg ho hd
    rwa [← hp] at hclose
  unfold Pass.openGroup
  by_cases hempty : group = []
  · subst hempty
    refine skip ?_
    rcases Nat.eq_zero_or_pos started with rfl | hs
    · exact .unstarted hidle
    · exact .ran hs rfl nofun
  · rw [if_neg (by simpa using hempty)]
    rcases Nat.eq_zero_or_pos started with rfl | hs
    · exact skip (.unstarted hidle)
    · rw [if_neg (Nat.ne_of_gt hs)]
      refine ⟨h.closed, .running rfl hg hs ho ?_, h.later, nofun, h.places⟩
      rw [funext hidle]
      exact ledger_start s group hs

/-- Every move keeps the account. -/
theorem Account.effect (h : Account s p ds) (he : Effect s p move cs ws q) : Account s q (ds ++ deedsOf s p move) := by
  cases he with
  | @conclude stopping started elapsed hp hg =>
    have hdeeds : deedsOf s p (.boundary stopping started elapsed) = [] := by simp only [deedsOf, hp, hg]
    rw [hdeeds, List.append_nil]
    exact h.finish hp (.inl hg)
  | @interrupt started elapsed group hp hg =>
    have hdeeds : deedsOf s p (.boundary true started elapsed) = [.interrupted p.results.length] := by
      simp only [deedsOf, hp, hg, if_true]
    rw [hdeeds]
    exact (h.note fun _ _ => rfl).finish hp (.inr (by simp))
  | @openGroup started elapsed group hp hg =>
    have hdeeds : deedsOf s p (.boundary false started elapsed) = [.opened p.results.length started] := by
      simp [deedsOf, hp, hg]
    rw [hdeeds]
    exact (h.note fun _ _ => rfl).openGroup hp hg (by simp)
  | @claim k group pool pool' hp hc =>
    have hdeeds : deedsOf s p (.claim k) = [] := by simp only [deedsOf, hp]
    rw [hdeeds]
    exact h.step hp (by simp) fun hl => by simpa using hl.claim hc
  | @settle k i table group pool m r hp hw hm ho =>
    have hdeeds : deedsOf s p (.start k table) = [Act.read table].map (.did p.results.length i m) := by
      simp only [deedsOf, hp, itemAt?_of_claimed hw hm, readActs, ho]
    have hopen := Pool.openItem?_eq_some_iff.2 ⟨_, hw, .inl rfl⟩
    rw [hdeeds]
    refine h.step hp (by simp [hm]) fun hl => ?_
    rw [actsAt_update]
    refine hl.advance hw (.inl rfl) (.finish hopen trivial (Pool.finish?_of_openItem? hopen r)) hm (.inl ⟨2, rfl, ?_⟩)
    rw [hl.acts_of_claimed hw hm]
    exact .holding (.settled ho)
  | @call k i table group pool m request hp hw hm ho =>
    have hdeeds : deedsOf s p (.start k table) =
        [Act.read table, .called request].map (.did p.results.length i m) := by
      simp only [deedsOf, hp, itemAt?_of_claimed hw hm, readActs, ho]
    have hopen := Pool.openItem?_eq_some_iff.2 ⟨_, hw, .inl rfl⟩
    rw [hdeeds]
    refine h.step hp (by simp [hm]) fun hl => ?_
    rw [actsAt_update]
    refine hl.advance hw (.inl rfl) (.start hopen (Pool.start?_of_claimed hw)) hm (.inl ⟨1, rfl, ?_⟩)
    rw [hl.acts_of_claimed hw hm]
    exact .working ⟨table, request, ho, rfl⟩
  | @lose k i reply took group pool m hp hw hm hc =>
    have hdeeds : deedsOf s p (.finish k reply took) =
        [Act.answered reply took].map (.did p.results.length i m) := by
      simp only [deedsOf, hp, itemAt?_of_working hw hm, List.map_cons, List.map_nil]
    have hopen := Pool.openItem?_eq_some_iff.2 ⟨_, hw, .inr rfl⟩
    rw [hdeeds]
    refine h.step hp (by simp [hm]) fun hl => ?_
    rw [actsAt_update]
    refine hl.advance hw (.inr rfl) (.lose hopen trivial (Pool.lose?_of_openItem? hopen)) hm (.inr ⟨rfl, ?_⟩)
    exact hc ▸ (hl.acts_of_working hw hm).answered reply took
  | @finish k i reply took group pool m r hp hw hm hc =>
    have hdeeds : deedsOf s p (.finish k reply took) =
        [Act.answered reply took].map (.did p.results.length i m) := by
      simp only [deedsOf, hp, itemAt?_of_working hw hm, List.map_cons, List.map_nil]
    have hopen := Pool.openItem?_eq_some_iff.2 ⟨_, hw, .inr rfl⟩
    rw [hdeeds]
    refine h.step hp (by simp [hm]) fun hl => ?_
    rw [actsAt_update]
    refine hl.advance hw (.inr rfl) (.finish hopen trivial (Pool.finish?_of_openItem? hopen r)) hm (.inl ⟨2, rfl, ?_⟩)
    exact .holding (hc ▸ (hl.acts_of_working hw hm).answered reply took)
  | @store k i group pool pool' r hp hw hc =>
    have hdeeds : deedsOf s p (.store k) = [] := by simp only [deedsOf, hp]
    rw [hdeeds]
    exact h.step hp (by simp) fun hl => by simpa using hl.store hc
  | close hp hover =>
    have hdeeds : deedsOf s p .close = [] := by simp only [deedsOf, hp]
    rw [hdeeds, List.append_nil]
    cases h.ongoing with
    | idle hidle => exact absurd hp (hidle _ _)
    | running hp' hg hs ho hl =>
      obtain ⟨rfl, rfl⟩ := Phase.running.inj (hp'.symm.trans hp)
      exact h.close hg ho (hl.groupDone hover hs)

/-- The history of every run accounts for its results. -/
theorem Run.account (h : Run s plan moves calls words p) : Account s p (history s plan moves) := by
  induction h with
  | start => exact account_start s plan
  | move h hm ih => rw [h.history_snoc]; exact ih.effect (effect_of_move? hm)

end Pass

end ScriptRunner
