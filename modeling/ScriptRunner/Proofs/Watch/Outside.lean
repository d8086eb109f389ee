import ScriptRunner.Proofs.Planning.Preparation
import ScriptRunner.Proofs.Watch.Polls
import ScriptRunner.Proofs.Workspace.Ownership

/-!
# Changes outside a selection

A watch looks for the owner of a changed file among the members that are watched, not among all members of the
workspace.  While it sees changes of other members only, it should be silent.  It is silent as long as no two snapshots
in a row have a difference that some watched member holds (`Watch.Path.silent`).

If the watched members are closed, changes of other members are no such differences
(`Snapshot.DifferOutside.diff_eq_nil`).  If they are not, a file of a member that is not watched is laid to the watched
member around it, and a pass is run for it.  So closed selections are the ones that are silent when they should be
(`Watch.silent_iff_closed`).
-/

namespace ScriptRunner

namespace Snapshot

variable {all selected : List Member} {old new : Snapshot} {path : List String}

/-- What differs between two snapshots belongs to members that are not selected. -/
def DifferOutside (all selected : List Member) (old new : Snapshot) : Prop :=
  ∀ path, kindAt? old new path ≠ none → ∃ o, Member.ownerOf? all path = some o ∧ o ∉ selected

/-- Only a path that one of the snapshots has can differ. -/
theorem mem_keys_of_kindAt? (h : kindAt? old new path ≠ none) : path ∈ old.keys ++ new.keys := by
  have mem_keys : ∀ {s : Snapshot} {stamp}, s.get? path = some stamp → path ∈ s.keys := fun hs =>
    List.mem_map_of_mem (f := (·.1)) (SortedMap.get?_eq_some_iff.1 hs)
  rw [List.mem_append]
  cases hnew : new.get? path with
  | some stamp => exact .inr (mem_keys hnew)
  | none =>
    cases hold : old.get? path with
    | some stamp => exact .inl (mem_keys hold)
    | none => simp [kindAt?, hnew, SortedMap.contains, hold] at h

theorem differOutside_of_keys
    (h : ∀ path ∈ old.keys ++ new.keys, ∃ o, Member.ownerOf? all path = some o ∧ o ∉ selected) :
    DifferOutside all selected old new :=
  fun path hk => h path (mem_keys_of_kindAt? hk)

/-- The members of a closed selection see nothing of what differs outside. -/
theorem DifferOutside.diff_eq_nil (h : DifferOutside all selected old new) (hc : Member.Closed all selected)
    (hsub : selected.Sublist all) (hn : (all.map Member.place).Nodup) : diff selected old new = [] := by
  refine diff_eq_nil_iff.2 fun path hheld => ?_
  by_contra hk
  obtain ⟨o, ho, hs⟩ := h path hk
  rw [hc.ownerOf?_eq hsub hn, ho, Option.filter_some, if_neg (by simpa using hs)] at hheld
  exact nomatch hheld

end Snapshot

namespace Watch

variable {σ : Type} {w : Watcher} {s final : State} {fuel : Nat} {polls : List Poll} {idled : Bool}

/-! ### Silent watches -/

/-- An act that neither announces changes nor runs a pass. -/
def Act.Silent : Act → Prop
  | .announced _ _ | .ran _ _ => False
  | _ => True

/-- A watch is silent while no snapshot differs from the one before. -/
theorem Path.silent (h : Path w fuel s polls idled final)
    (hs : (s.baseline :: scans (history polls idled)).IsChain fun a b => w.diff a b = []) :
    (∀ a ∈ history polls idled, a.Silent) ∧ final.passes = s.passes := by
  induction h with
  | out => exact ⟨nofun, rfl⟩
  | idle => simp [history, Act.Silent]
  | stopped h =>
    rw [history_cons, scans_append, Poll.scans_acts] at hs
    cases h with
    | stopped h => exact absurd (List.isChain_cons_cons.1 hs).1 h
  | poll h _ ih =>
    rw [history_cons, scans_append, Poll.scans_acts] at hs
    obtain ⟨hsame, hs⟩ := List.isChain_cons_cons.1 hs
    cases h with
    | calm h =>
      obtain ⟨hrest, hpasses⟩ := ih hs
      refine ⟨fun a ha => ?_, hpasses⟩
      rw [history_cons, List.mem_append] at ha
      rcases ha with ha | ha
      · simp only [Poll.acts, Option.toList_none, List.map_nil, List.flatMap_nil, List.append_nil, List.mem_cons,
          List.not_mem_nil, or_false] at ha
        rcases ha with rfl | rfl <;> trivial
      · exact hrest a ha
    | cancelled h => exact absurd hsame h
    | rerun h => exact absurd hsame h

/-- What is announced differs between two snapshots. -/
theorem Path.announced (h : Path w fuel s polls idled final) {changes : List Change} {plan : Plan}
    (ha : .announced changes plan ∈ history polls idled) : ∃ old new, changes = w.diff old new := by
  induction h with
  | out => simp [history] at ha
  | idle => simp [history] at ha
  | stopped h =>
    cases h with
    | stopped => simp [history, Poll.acts] at ha
  | poll h _ ih =>
    rw [history_cons, List.mem_append] at ha
    refine ha.elim (fun ha => ?_) ih
    cases h with
    | calm => simp [Poll.acts] at ha
    | cancelled => simp [Poll.acts] at ha
    | rerun =>
      simp [Poll.acts] at ha
      exact ⟨_, _, ha.1⟩

/-! ### A noisy watch -/

/-- A world that never stops the watch and always shows one snapshot. -/
def World.still (snapshot : Snapshot) : World Unit where
  idle x := (false, x)
  settle x := (false, x)
  scan _ x := (snapshot, x)
  note _ x := x
  announce _ _ x := x
  run _ x := ({}, x)

/-- A snapshot that differs from the baseline is announced and good for a pass. -/
theorem run_still {old new : Snapshot} (h : w.diff old new ≠ []) :
    scans (run (World.still new).recorded w 1 old ((), [])).2.2 = [new, new] ∧
      .announced (w.diff old new) (w.planFor (w.diff old new)) ∈ (run (World.still new).recorded w 1 old ((), [])).2.2 ∧
      (run (World.still new) w 1 old ()).1.passes = 1 := by
  simp [run, rounds, round, trigger, World.still, World.recorded, h, scans]

/-- A selection that is not closed runs a pass for a file of another member. -/
theorem exists_noisy {all : List Member} (hsub : w.members.Sublist all) (hn : (all.map Member.place).Nodup)
    (h : ¬Member.Closed all w.members) :
    ∃ old new, (old :: scans (run (World.still new).recorded w 1 old ((), [])).2.2).IsChain
        (Snapshot.DifferOutside all w.members) ∧ (run (World.still new) w 1 old ()).1.passes = 1 := by
  obtain ⟨path, d, -, hd, hall, m, -, hm⟩ := Member.exists_of_not_closed hsub hn h
  let new : Snapshot := ⟨[(path, ⟨0, 0, none⟩)], by simp⟩
  have hkind : Snapshot.kindAt? ∅ new path = some .created := by
    rw [Snapshot.kindAt?, SortedMap.get?_eq_some_iff.2 (List.mem_singleton_self _)]
    rfl
  have hdiff : w.diff ∅ new ≠ [] :=
    List.ne_nil_of_mem (a := ⟨path, .created, m⟩) (Snapshot.mem_diff_iff.2 ⟨hkind, hm⟩)
  obtain ⟨hscans, -, hpasses⟩ := run_still hdiff
  refine ⟨∅, new, ?_, hpasses⟩
  have houtside : ∀ {old : Snapshot}, old.keys ⊆ [path] → Snapshot.DifferOutside all w.members old new := by
    refine fun hold => Snapshot.differOutside_of_keys fun p hp => ?_
    obtain rfl : p = path := List.mem_singleton.1 ((List.mem_append.1 hp).elim (fun h => hold h) id)
    exact ⟨d, hall, hd⟩
  rw [hscans]
  exact .cons_cons (houtside (List.nil_subset _)) (.cons_cons (houtside (List.Subset.refl _)) (.singleton _))

variable {r : Request} {load : Attempt Workspace} {detect : Detector} {filters : Filters} {p : Prepared}
  {settings : WatchSettings}

/-- A watch of the selected members announces changes of the deepest selected member around a file.  It is silent in
every world that shows it changes of other members only, if and only if the selected members are closed. -/
theorem silent_iff_closed (hp : (r.prepare load detect filters).run.value = .ok (.ok p))
    (hw : Watcher.ofSettings p.selected p.workspace.dependencies p.plan settings = .ok w)
    (hn : (p.workspace.members.map Member.place).Nodup) :
    (∀ {σ : Type} (env : World σ) fuel baseline x changes plan,
        .announced changes plan ∈ (run env.recorded w fuel baseline (x, [])).2.2 →
          ∀ c ∈ changes, c.member ∈ p.selected ∧ c.member.place <+: c.path ∧
            ∀ m ∈ p.selected, m.place <+: c.path → m.place <+: c.member.place) ∧
      ((∀ {σ : Type} (env : World σ) fuel baseline x,
          (baseline :: scans (run env.recorded w fuel baseline (x, [])).2.2).IsChain
            (Snapshot.DifferOutside p.workspace.members p.selected) →
          (∀ a ∈ (run env.recorded w fuel baseline (x, [])).2.2, a.Silent) ∧
            (run env w fuel baseline x).1.passes = 0) ↔
        Member.Closed p.workspace.members p.selected) := by
  have hout := Request.outcome_prepare r load detect filters
  rw [hp] at hout
  obtain ⟨-, -, hsub⟩ := hout.ready_perm
  have hmembers : w.members = p.selected := by
    obtain ⟨options, -, rfl⟩ := Watcher.ofSettings_eq_ok_iff.1 hw
    rfl
  rw [← hmembers] at hsub ⊢
  refine ⟨fun env fuel baseline x changes plan ha c hc => ?_, fun hsilent => ?_,
    fun hclosed σ env fuel baseline x hs => ?_⟩
  · obtain ⟨polls, idled, hpath, hrecord⟩ := exists_run env w fuel baseline x
    rw [hrecord] at ha
    obtain ⟨old, new, rfl⟩ := hpath.announced ha
    exact (Member.ownerOf?_eq_some_iff_of_nodup (hn.sublist (hsub.map _))).1 (Snapshot.mem_diff_iff.1 hc).2
  · by_contra hopen
    obtain ⟨old, new, hs, hpasses⟩ := exists_noisy hsub hn hopen
    exact absurd (hsilent (World.still new) 1 old () hs).2 (by rw [hpasses]; exact Nat.one_ne_zero)
  · obtain ⟨polls, idled, hpath, hrecord⟩ := exists_run env w fuel baseline x
    rw [hrecord] at hs ⊢
    exact hpath.silent (hs.imp fun _ _ h => h.diff_eq_nil hclosed hsub hn)

/-- The inner of two members is closed by itself. -/
theorem silent_iff_closed_inner :
    let outer : Member := ⟨"outer", "outer", "/ws/outer", none, none⟩
    let inner : Member := ⟨"inner", "outer/inner", "/ws/outer/inner", none, none⟩
    let w : Watcher := ⟨[inner], Graph.ofMembers [inner] ∅, .flat [inner], .all, ⟨[], false⟩⟩
    ∀ {σ : Type} (env : World σ) fuel baseline x,
      (baseline :: scans (run env.recorded w fuel baseline (x, [])).2.2).IsChain
        (Snapshot.DifferOutside [outer, inner] [inner]) → (run env w fuel baseline x).1.passes = 0 := by
  intro outer inner w σ env fuel baseline x hs
  have hp : (Request.prepare ⟨some "inner", false, none⟩ (pure ⟨"/ws", [outer, inner], ∅⟩)
      (fun _ _ _ => pure []) ∅).run.value = .ok (.ok ⟨⟨"/ws", [outer, inner], ∅⟩, [inner], .flat [inner]⟩) := by
    have hkept : Request.matching (.literal ["inner"]) ⟨"/ws", [outer, inner], ∅⟩ = [inner] := by decide +kernel
    have hs : Request.filterSpec ⟨some "inner", false, none⟩ ∅ = .ok (.literal ["inner"]) := rfl
    rw [Request.prepare_flat rfl hs rfl rfl (by rw [hkept]; exact List.cons_ne_nil _ _), hkept]
  have hw : Watcher.ofSettings [inner] ∅ (.flat [inner]) { exclude := [] } = .ok w := rfl
  exact ((silent_iff_closed hp hw (by decide +kernel)).2.2 (by decide +kernel) env fuel baseline x hs).2

/-- A new file of a member that is not selected, and a pass for the selected member around it. -/
theorem silent_iff_closed_left_out :
    let outer : Member := ⟨"outer", "outer", "/ws/outer", none, none⟩
    let inner : Member := ⟨"inner", "outer/inner", "/ws/outer/inner", none, none⟩
    let ws : Workspace := ⟨"/ws", [outer, inner], ∅⟩
    let w : Watcher := ⟨[outer], Graph.ofMembers [outer] ∅, .flat [outer], .all, ⟨[], false⟩⟩
    let tree (files : List (String × Node)) : Tree := .dir [("ws", .dir [("outer", .dir [("inner", .dir files)])])]
    let before : Snapshot := (Snapshot.take (tree []) w.members w.options none).value
    let after : Snapshot := (Snapshot.take (tree [("lib.js", .file [] 0)]) w.members w.options none).value
    let acts : List Act := (run (World.still after).recorded w 1 before ((), [])).2.2
    (Request.prepare ⟨some "outer", false, none⟩ (pure ws) (fun _ _ _ => pure []) ∅).run.value =
        .ok (.ok ⟨ws, [outer], .flat [outer]⟩) ∧
      Watcher.ofSettings [outer] ws.dependencies (.flat [outer]) { exclude := [] } = .ok w ∧
      (ws.members.map Member.place).Nodup ∧
      (before :: scans acts).IsChain (Snapshot.DifferOutside ws.members [outer]) ∧
      .announced [⟨["/", "ws", "outer", "inner", "lib.js"], .created, outer⟩] (.flat [outer]) ∈ acts ∧
      (run (World.still after) w 1 before ()).1.passes = 1 := by
  intro outer inner ws w tree before after acts
  have hdiff : w.diff before after = [⟨["/", "ws", "outer", "inner", "lib.js"], .created, outer⟩] := by decide +kernel
  obtain ⟨hscans, hannounced, hpasses⟩ := run_still (hdiff ▸ List.cons_ne_nil _ _ : w.diff before after ≠ [])
  rw [hdiff] at hannounced
  have houtside : ∀ {old : Snapshot}, old.keys ++ after.keys ⊆ [["/", "ws", "outer", "inner", "lib.js"]] →
      Snapshot.DifferOutside ws.members [outer] old after := by
    refine fun hold => Snapshot.differOutside_of_keys fun path hpath => ?_
    obtain rfl := List.mem_singleton.1 (hold hpath)
    exact ⟨inner, by decide +kernel, by decide +kernel⟩
  have hkept : Request.matching (.literal ["outer"]) ws = [outer] := by decide +kernel
  refine ⟨?_, rfl, by decide +kernel, ?_, hannounced, hpasses⟩
  · have hs : Request.filterSpec ⟨some "outer", false, none⟩ ∅ = .ok (.literal ["outer"]) := rfl
    rw [Request.prepare_flat rfl hs rfl rfl (by rw [hkept]; exact List.cons_ne_nil _ _), hkept]
  · rw [hscans]
    exact .cons_cons (houtside (by decide +kernel)) (.cons_cons (houtside (by decide +kernel)) (.singleton _))

end Watch

end ScriptRunner
