import ScriptRunner.Proofs.Watch.Scan
import ScriptRunner.Watch.Loop

/-!
# What a watch reacts to

`World.recorded` is a world that also remembers what the watch has done in it.  The record of a watch is a list of
polls, each of which goes on in one of four ways (`Step`).  A poll runs a pass exactly if what it sees, and what it sees
once more after the changes have settled, both differ from the snapshot of the last pass.

The loop does not keep that snapshot: its baseline is replaced after every poll, also by snapshots that only look the
same.  The invariant is that the baseline and the snapshot of the last pass agree on all files of the members, and since
`diff` takes the one for the other (`Snapshot.Agree.diff_eq`), no change is lost and none is seen twice.
-/

namespace ScriptRunner

/-- Two snapshots look the same to a watcher. -/
def Watcher.Agree (w : Watcher) (a b : Snapshot) : Prop := Snapshot.Agree w.members w.options.useHash a b

/-- A snapshot has digests as the watcher wants them. -/
def Watcher.Fits (w : Watcher) (s : Snapshot) : Prop := s.Stamped w.options.useHash

namespace Watch

variable {σ : Type}

/-! ### Records -/

/-- What a watch does to its world. -/
inductive Act where
  | idled (stopped : Bool)
  | scanned (previous : Option Snapshot) (result : Snapshot)
  | settled (stopped : Bool)
  | announced (changes : List Change) (plan : Plan)
  | ran (plan : Plan) (summary : Summary)

/-- The same world, which remembers what is done in it. -/
def World.recorded (env : World σ) : World (σ × List Act) where
  idle x := let r := env.idle x.1; (r.1, r.2, x.2 ++ [.idled r.1])
  settle x := let r := env.settle x.1; (r.1, r.2, x.2 ++ [.settled r.1])
  scan previous x := let r := env.scan previous x.1; (r.1, r.2, x.2 ++ [.scanned previous r.1])
  note e x := (env.note e x.1, x.2)
  announce changes plan x := (env.announce changes plan x.1, x.2 ++ [.announced changes plan])
  run plan x := let r := env.run plan x.1; (r.1, r.2, x.2 ++ [.ran plan r.1])

/-- The snapshots that were taken. -/
def scans (acts : List Act) : List Snapshot :=
  acts.filterMap fun | .scanned _ s => some s | _ => none

@[simp] theorem scans_append (as bs : List Act) : scans (as ++ bs) = scans as ++ scans bs := List.filterMap_append

/-- A pass that changes have triggered. -/
structure Rerun where
  changes : List Change
  plan : Plan
  summary : Summary

/-- One poll. -/
structure Poll where
  /-- The baseline of the loop while it was idle. -/
  baseline : Snapshot
  polled : Snapshot
  /-- Whether the watch was stopped while the changes settled, if the poll waited for that. -/
  stopped : Option Bool := none
  /-- What the poll has seen after the changes have settled. -/
  settled : Option Snapshot := none
  rerun : Option Rerun := none

namespace Poll

/-- What a poll does. -/
def acts (p : Poll) : List Act :=
  [.idled false, .scanned (some p.baseline) p.polled] ++ p.stopped.toList.map .settled ++
    p.settled.toList.map (.scanned (some p.polled)) ++
    p.rerun.toList.flatMap fun r => [.announced r.changes r.plan, .ran r.plan r.summary]

@[simp] theorem scans_acts (p : Poll) : scans p.acts = p.polled :: p.settled.toList := by
  obtain ⟨baseline, polled, stopped, settled, rerun⟩ := p
  cases stopped <;> cases settled <;> cases rerun <;> rfl

/-- The snapshot of the last pass after a poll. -/
def next (ref : Snapshot) (p : Poll) : Snapshot := if p.rerun.isSome then p.settled.getD ref else ref

/-- The poll does what it should after a pass for the snapshot `ref`. -/
structure Sound (w : Watcher) (ref : Snapshot) (p : Poll) : Prop where
  baseline : w.Agree p.baseline ref
  waits : p.stopped.isSome ↔ ¬w.Agree ref p.polled
  settles : p.settled.isSome ↔ p.stopped = some false
  reruns : p.rerun.isSome ↔ ¬w.Agree ref p.polled ∧ p.stopped = some false ∧ ∃ s ∈ p.settled, ¬w.Agree ref s
  announced : ∀ r ∈ p.rerun, ∀ s ∈ p.settled, r.changes = w.diff ref s ∧ r.plan = w.planFor (w.diff ref s)

end Poll

/-- The snapshot of the last pass after some polls. -/
def reference (ref : Snapshot) (polls : List Poll) : Snapshot := polls.foldl Poll.next ref

/-- The passes of some polls. -/
def reruns (polls : List Poll) : List Rerun := polls.filterMap (·.rerun)

theorem reruns_cons (p : Poll) (polls : List Poll) : reruns (p :: polls) = p.rerun.toList ++ reruns polls := by
  cases h : p.rerun <;> simp [reruns, h]

/-- What polls do, and a stop while the watch is idle. -/
def history (polls : List Poll) (idled : Bool) : List Act :=
  polls.flatMap Poll.acts ++ if idled then [.idled true] else []

theorem history_cons (p : Poll) (polls : List Poll) (idled : Bool) :
    history (p :: polls) idled = p.acts ++ history polls idled := by
  simp [history]

/-! ### One round -/

/-- The ways that one round goes, with the poll that it makes and the state after it. -/
inductive Step (w : Watcher) (s : State) : Option Poll → Option State → Prop
  | idle : Step w s none none
  | calm {current : Snapshot} (h : w.diff s.baseline current = []) :
    Step w s (some { baseline := s.baseline, polled := current }) (some { s with baseline := current })
  | stopped {current : Snapshot} (h : w.diff s.baseline current ≠ []) :
    Step w s (some { baseline := s.baseline, polled := current, stopped := some true }) none
  | cancelled {current settled : Snapshot} (h : w.diff s.baseline current ≠ []) (h' : w.diff s.baseline settled = []) :
    Step w s (some { baseline := s.baseline, polled := current, stopped := some false, settled := some settled })
      (some { s with baseline := settled })
  | rerun {current settled : Snapshot} {summary : Summary} (h : w.diff s.baseline current ≠ [])
    (h' : w.diff s.baseline settled ≠ []) :
    Step w s
      (some { baseline := s.baseline, polled := current, stopped := some false, settled := some settled,
              rerun := some ⟨w.diff s.baseline settled, w.planFor (w.diff s.baseline settled), summary⟩ })
      (some ⟨settled, s.passes + 1, some summary⟩)

/-- What a round does to the world: a poll, or a stop while it is idle. -/
def actsOf (p : Option Poll) : List Act := p.elim [.idled true] Poll.acts

variable {env : World σ} {w : Watcher} {s : State} {x y : σ} {before : List Act}

theorem recorded_idle {stopped : Bool} (h : env.idle x = (stopped, y)) :
    env.recorded.idle (x, before) = (stopped, y, before ++ [.idled stopped]) := by
  simp [World.recorded, h]

theorem recorded_settle {stopped : Bool} (h : env.settle x = (stopped, y)) :
    env.recorded.settle (x, before) = (stopped, y, before ++ [.settled stopped]) := by
  simp [World.recorded, h]

theorem recorded_scan {previous : Option Snapshot} {snapshot : Snapshot} (h : env.scan previous x = (snapshot, y)) :
    env.recorded.scan previous (x, before) = (snapshot, y, before ++ [.scanned previous snapshot]) := by
  simp [World.recorded, h]

theorem recorded_run {plan : Plan} {summary : Summary} (h : env.run plan x = (summary, y)) :
    env.recorded.run plan (x, before) = (summary, y, before ++ [.ran plan summary]) := by
  simp [World.recorded, h]

@[simp] theorem recorded_note {e : Log.Entry} : env.recorded.note e (x, before) = (env.note e x, before) := rfl

@[simp] theorem recorded_announce {changes : List Change} {plan : Plan} :
    env.recorded.announce changes plan (x, before) =
      (env.announce changes plan x, before ++ [.announced changes plan]) := rfl

/-- Every round goes one of these ways. -/
theorem exists_step (env : World σ) (w : Watcher) (s : State) (x : σ) (before : List Act) :
    ∃ p o y, Step w s p o ∧ round env w s x = (o, y) ∧
      round env.recorded w s (x, before) = (o, y, before ++ actsOf p) := by
  unfold round
  rcases hidle : env.idle x with ⟨_ | _, x₁⟩
  · rcases hscan : env.scan (some s.baseline) x₁ with ⟨current, x₂⟩
    simp only [recorded_idle hidle, hscan, recorded_scan hscan, Bool.false_eq_true, if_false, recorded_note,
      List.append_assoc]
    by_cases hseen : w.diff s.baseline current = []
    · simp only [List.isEmpty_iff, if_pos hseen]
      exact ⟨_, _, x₂, .calm hseen, rfl, rfl⟩
    · simp only [List.isEmpty_iff, if_neg hseen]
      generalize env.note _ x₂ = x₃
      rcases hsettle : env.settle x₃ with ⟨_ | _, x₄⟩
      · rcases hscan' : env.scan (some current) x₄ with ⟨settled, x₅⟩
        simp only [hsettle, recorded_settle hsettle, hscan', recorded_scan hscan', Bool.false_eq_true, if_false,
          recorded_note, List.append_assoc]
        by_cases hsettled : w.diff s.baseline settled = []
        · simp only [if_pos hsettled]
          exact ⟨_, _, _, .cancelled hseen hsettled, rfl, rfl⟩
        · simp only [if_neg hsettled, trigger, recorded_note, recorded_announce]
          generalize env.announce _ _ _ = x₆
          rcases hrun : env.run (w.planFor (w.diff s.baseline settled)) x₆ with ⟨summary, x₇⟩
          simp only [hrun, recorded_run hrun, List.append_assoc]
          exact ⟨_, _, _, .rerun hseen hsettled, rfl, rfl⟩
      · simp only [hsettle, recorded_settle hsettle, if_true, List.append_assoc]
        exact ⟨_, _, _, .stopped hseen, rfl, rfl⟩
  · simp only [recorded_idle hidle, if_true]
    exact ⟨none, none, x₁, .idle, rfl, rfl⟩

/-! ### What a round preserves -/

variable {ref : Snapshot} {p : Poll} {o : Option State} {s' final : State}

/-- A watcher sees no changes exactly if a snapshot looks the same as that of the last pass. -/
theorem diff_eq_nil_iff_agree {current : Snapshot} (ha : w.Agree s.baseline ref) (hb : w.Fits s.baseline)
    (hr : w.Fits ref) (hc : w.Fits current) : w.diff s.baseline current = [] ↔ w.Agree ref current := by
  rw [Watcher.diff, Snapshot.Agree.diff_eq hb hr hc ha]
  exact Snapshot.diff_eq_nil_iff_agree hr hc

/-- If the baseline agrees with the snapshot of the last pass, a poll does what it should. -/
theorem Step.sound (h : Step w s (some p) o) (ha : w.Agree s.baseline ref) (hb : w.Fits s.baseline) (hr : w.Fits ref)
    (hc : w.Fits p.polled) (hs : ∀ t ∈ p.settled, w.Fits t) : p.Sound w ref := by
  have differs : ∀ {t}, w.Fits t → (w.diff s.baseline t = [] ↔ w.Agree ref t) := diff_eq_nil_iff_agree ha hb hr
  cases h with
  | calm h =>
    have hagree := (differs hc).1 h
    exact ⟨ha, by simp [hagree], by simp, by simp, by simp⟩
  | stopped h =>
    have hdiffer := mt (differs hc).2 h
    exact ⟨ha, by simp [hdiffer], by simp, by simp, by simp⟩
  | cancelled h h' =>
    have hdiffer := mt (differs hc).2 h
    have hagree := (differs (hs _ rfl)).1 h'
    exact ⟨ha, by simp [hdiffer], by simp, by simp [hagree], by simp⟩
  | @rerun current settled _ h h' =>
    have hdiffer := mt (differs hc).2 h
    have hdiffer' := mt (differs (hs _ rfl)).2 h'
    have hsame : w.diff s.baseline settled = w.diff ref settled := Snapshot.Agree.diff_eq hb hr (hs _ rfl) ha
    exact ⟨ha, by simp [hdiffer], by simp, by simp [hdiffer, hdiffer'], by simp [hsame]⟩

/-- After a poll the baseline agrees with the snapshot of the last pass again. -/
theorem Step.tracks (h : Step w s (some p) (some s')) (ha : w.Agree s.baseline ref) (hb : w.Fits s.baseline)
    (hr : w.Fits ref) (hc : w.Fits p.polled) (hs : ∀ t ∈ p.settled, w.Fits t) :
    w.Agree s'.baseline (p.next ref) ∧ w.Fits s'.baseline ∧ w.Fits (p.next ref) := by
  cases h with
  | calm h => exact ⟨((diff_eq_nil_iff_agree ha hb hr hc).1 h).symm, hc, hr⟩
  | cancelled h h' => exact ⟨((diff_eq_nil_iff_agree ha hb hr (hs _ rfl)).1 h').symm, hs _ rfl, hr⟩
  | rerun h h' => exact ⟨Snapshot.Agree.refl _, hs _ rfl, hs _ rfl⟩

/-- A poll counts its pass and keeps its summary; the watch goes on. -/
theorem Step.counts (h : Step w s (some p) (some s')) :
    s'.passes = s.passes + p.rerun.toList.length ∧ s'.last = (p.rerun.map (·.summary)).or s.last ∧
      p.stopped ≠ some true := by
  cases h <;> simp

/-! ### Runs of the loop -/

/-- At most `fuel` rounds lead from one state to another; the flag says that the watch was stopped while it was idle. -/
inductive Path (w : Watcher) : Nat → State → List Poll → Bool → State → Prop
  | out {s : State} : Path w 0 s [] false s
  | idle {fuel : Nat} {s : State} : Path w (fuel + 1) s [] true s
  | stopped {fuel : Nat} {s : State} {p : Poll} (h : Step w s (some p) none) : Path w (fuel + 1) s [p] false s
  | poll {fuel : Nat} {s s' final : State} {p : Poll} {polls : List Poll} {idled : Bool}
    (h : Step w s (some p) (some s')) (hr : Path w fuel s' polls idled final) :
    Path w (fuel + 1) s (p :: polls) idled final

theorem exists_path (env : World σ) (w : Watcher) (fuel : Nat) (s : State) (x : σ) (before : List Act) :
    ∃ polls idled final y, Path w fuel s polls idled final ∧ rounds env w fuel s x = (final, y) ∧
      rounds env.recorded w fuel s (x, before) = (final, y, before ++ history polls idled) := by
  induction fuel generalizing s x before with
  | zero => exact ⟨[], false, s, x, .out, rfl, by simp [rounds, history]⟩
  | succ fuel ih =>
    obtain ⟨p, o, y, hstep, hround, hrecorded⟩ := exists_step env w s x before
    simp only [rounds, hround, hrecorded]
    cases p with
    | none =>
      obtain rfl : o = none := by cases hstep; rfl
      exact ⟨[], true, s, y, .idle, rfl, rfl⟩
    | some p =>
      cases o with
      | none => exact ⟨[p], false, s, y, .stopped hstep, rfl, by simp [history, actsOf]⟩
      | some s' =>
        obtain ⟨polls, idled, final, z, hpath, hrounds, hrecord⟩ := ih s' y (before ++ p.acts)
        refine ⟨p :: polls, idled, final, z, .poll hstep hpath, hrounds, hrecord.trans ?_⟩
        rw [history_cons, List.append_assoc]

/-- Every watch comes to its end along a path, and its record is what the polls of the path do. -/
theorem exists_run (env : World σ) (w : Watcher) (fuel : Nat) (baseline : Snapshot) (x : σ) :
    ∃ polls idled, Path w fuel ⟨baseline, 0, none⟩ polls idled (run env w fuel baseline x).1 ∧
      (run env.recorded w fuel baseline (x, [])).2.2 = history polls idled := by
  obtain ⟨polls, idled, final, y, hpath, hrounds, hrecord⟩ := exists_path env w fuel ⟨baseline, 0, none⟩
    (env.note ⟨.info, "watching for changes",
      [("members", .number w.members.length), ("files", .number baseline.size), ("rerun", .plain w.rerun.name)]⟩ x) []
  refine ⟨polls, idled, ?_, ?_⟩
  · simpa only [run, hrounds] using hpath
  · simp only [run, recorded_note, hrecord, List.nil_append]

/-- What is true of the polls of a watch of at most `fuel` rounds from a state `s` on, after a pass for the snapshot
`ref`. -/
structure Account (w : Watcher) (ref : Snapshot) (s : State) (fuel : Nat) (polls : List Poll) (idled : Bool)
    (final : State) : Prop where
  sound : ∀ k (p : Poll), polls[k]? = some p → p.Sound w (reference ref (polls.take k))
  baseline : w.Agree final.baseline (reference ref polls)
  passes : final.passes = s.passes + (reruns polls).length
  last : final.last = ((reruns polls).getLast?.map (·.summary)).or s.last
  /-- Nothing comes after a stop. -/
  stopped : ∀ k (p : Poll), polls[k]? = some p → p.stopped = some true → k + 1 = polls.length ∧ idled = false
  /-- Nothing but a stop ends the watch early. -/
  ended : polls.length < fuel → idled ∨ ∃ p, polls.getLast? = some p ∧ p.stopped = some true

/-- The invariant along a run: the baseline agrees with the snapshot of the last pass. -/
theorem Path.account {fuel : Nat} {polls : List Poll} {idled : Bool} (h : Path w fuel s polls idled final)
    (ha : w.Agree s.baseline ref) (hb : w.Fits s.baseline) (hr : w.Fits ref)
    (hs : ∀ t ∈ scans (history polls idled), w.Fits t) : Account w ref s fuel polls idled final := by
  induction h generalizing ref with
  | out => exact ⟨nofun, ha, rfl, rfl, nofun, nofun⟩
  | idle => exact ⟨nofun, ha, rfl, rfl, nofun, fun _ => .inl rfl⟩
  | @stopped fuel s p h =>
    rw [history_cons, scans_append, Poll.scans_acts] at hs
    have hsound : p.Sound w ref := h.sound ha hb hr (hs _ (by simp)) fun t ht => hs t (by simp [Option.mem_def.1 ht])
    cases h with
    | stopped h =>
      exact {
        sound := fun | 0, _, rfl => hsound
        baseline := ha
        passes := rfl
        last := rfl
        stopped := fun | 0, _, rfl, _ => ⟨rfl, rfl⟩
        ended := fun _ => .inr ⟨_, rfl, rfl⟩ }
  | @poll fuel s s' final p polls idled h hpath ih =>
    rw [history_cons, scans_append, Poll.scans_acts] at hs
    have hc := hs p.polled (by simp)
    have hset : ∀ t ∈ p.settled, w.Fits t := fun t ht => hs t (by simp [Option.mem_def.1 ht])
    obtain ⟨ha', hb', hr'⟩ := h.tracks ha hb hr hc hset
    obtain ⟨hpasses, hlast, hgoes⟩ := h.counts
    have rest := ih ha' hb' hr' fun t ht => hs t (by simp [ht])
    exact {
      sound := fun
        | 0, _, rfl => h.sound ha hb hr hc hset
        | k + 1, q, hq => rest.sound k q hq
      baseline := rest.baseline
      passes := by rw [rest.passes, hpasses, reruns_cons, List.length_append, Nat.add_assoc]
      last := by
        rw [rest.last, hlast, reruns_cons, List.getLast?_append]
        cases (reruns polls).getLast? <;> cases p.rerun <;> rfl
      stopped := fun
        | 0, _, rfl, hs => absurd hs hgoes
        | k + 1, q, hq, hs => by simpa using rest.stopped k q hq hs
      ended := fun hlt => by
        refine (rest.ended (by simpa using hlt)).imp_right fun ⟨q, hq, hs⟩ => ⟨q, ?_, hs⟩
        rw [List.getLast?_cons, hq]
        rfl }

/-- A watch loses no change and reacts to none twice: its record is a list of polls, of which each runs a pass exactly if
both what it sees and what it sees once more differ, on a file of a member, from the snapshot of the last pass, and the
watch is not stopped in between.  The pass is announced with the changes since that snapshot.  While the watch is idle,
its baseline agrees with that snapshot.  The passes are counted, and the last summary is kept.  Scans that do not read
the files take snapshots as they are wanted here, without digests. -/
theorem run_polls (env : World σ) (w : Watcher) (fuel : Nat) (baseline : Snapshot) (x : σ)
    (hb : w.Fits baseline) (hs : ∀ t ∈ scans (run env.recorded w fuel baseline (x, [])).2.2, w.Fits t) :
    (∃ polls idled final y, run env w fuel baseline x = (final, y) ∧
      run env.recorded w fuel baseline (x, []) = (final, y, history polls idled) ∧
      Account w baseline ⟨baseline, 0, none⟩ fuel polls idled final) ∧
    (w.options.useHash = false → ∀ tree previous, w.Fits (Snapshot.take tree w.members w.options previous).value) := by
  obtain ⟨polls, idled, final, y, hpath, hrounds, hrecord⟩ := exists_path env w fuel ⟨baseline, 0, none⟩
    (env.note ⟨.info, "watching for changes",
      [("members", .number w.members.length), ("files", .number baseline.size), ("rerun", .plain w.rerun.name)]⟩ x) []
  have hrun : run env.recorded w fuel baseline (x, []) =
      (final, env.note ⟨.info, "watch stopped", [("passes", .number final.passes)]⟩ y, history polls idled) := by
    simp only [run, recorded_note, hrecord, List.nil_append]
  rw [hrun] at hs
  refine ⟨⟨polls, idled, final, _, ?_, hrun, hpath.account (Snapshot.Agree.refl _) hb hb hs⟩,
    fun h _ _ => Snapshot.stamped_take h⟩
  simp only [run, hrounds]

/-- An edit and the same state once more: one pass. -/
theorem run_polls_one_edit :
    let w : Watcher := ⟨[⟨"a", "a", "/a", none, none⟩], Graph.ofMembers [⟨"a", "a", "/a", none, none⟩] ∅,
      .flat [⟨"a", "a", "/a", none, none⟩], .all, ⟨[], false⟩⟩
    let before : Snapshot := ⟨[(["/", "a", "f"], ⟨1, 1, none⟩)], by simp⟩
    let after : Snapshot := ⟨[(["/", "a", "f"], ⟨2, 1, none⟩)], by simp⟩
    let env : World (List Snapshot) := {
      idle := fun x => (x.isEmpty, x)
      settle := fun x => (false, x)
      scan := fun _ x => (x.headD ∅, x.tail)
      note := fun _ x => x
      announce := fun _ _ x => x
      run := fun _ x => ({}, x) }
    ∃ polls idled final, (run env.recorded w 5 before ([after, after, after], [])).2.2 = history polls idled ∧
      Account w before ⟨before, 0, none⟩ 5 polls idled final ∧ final.passes = 1 := by
  intro w before after env
  have fits : ∀ t : Snapshot, (∀ e ∈ t.entries, e.2.digest.isSome = false) → w.Fits t :=
    fun t h path stamp hstamp => h _ (SortedMap.get?_eq_some_iff.1 hstamp)
  have hscans : scans (run env.recorded w 5 before ([after, after, after], [])).2.2 = [after, after, after] := by
    decide +kernel
  have hpasses : (run env w 5 before [after, after, after]).1.passes = 1 := by decide +kernel
  obtain ⟨⟨polls, idled, final, y, hrun, hrecord, haccount⟩, -⟩ :=
    run_polls env w 5 before [after, after, after] (fits _ (by decide)) (by
      rw [hscans]
      simp only [List.mem_cons, List.not_mem_nil, or_false, or_self]
      rintro t rfl
      exact fits _ (by decide))
  refine ⟨polls, idled, final, by rw [hrecord], haccount, ?_⟩
  rw [hrun] at hpasses
  exact hpasses

end Watch

end ScriptRunner
