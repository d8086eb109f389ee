import Mathlib
import ScriptRunner.Proofs.Planning.Preparation
import ScriptRunner.Proofs.Workspace.Ownership
import ScriptRunner.Repository.Detection

/-!
# Narrowing to changed members

A request for changed members asks the repository which files have changed and keeps, of the members that the filter
matches, those that own one (`Request.owning`).  The owners are looked for among the matched members only
(`Request.leaves_detector`).  No changed member is missed that way, but a file of a member that the filter leaves out
counts for a matched member around it.  Looking among all members gives the same, whatever has changed, exactly if the
matched members are closed (`Request.owning_eq_iff_closed`).
-/

namespace ScriptRunner

/-- A repository that answers every question reports the files of its answers. -/
theorem Repository.value_changedFiles {repository : Option Repository} {r : Repository} {t : Tree} {root : String}
    {place : List String} {entries : List (String × Node)} {o : ChangeOptions}
    (answer : Repository.Question → List (List String))
    (hplace : t.resolve [] root = .ok (place, .dir entries)) (hr : holding? repository t place = some r)
    (hq : ∀ q ∈ [Question.committed o.baseRef, .uncommitted, .untracked],
      q.text.toList.contains '\x00' = false ∧ r.answer? t q = some (answer q)) :
    (changedFiles repository t root o).run.value = .ok (SortedMap.ofList
      ((answer (.committed o.baseRef) ++ (if o.uncommitted then answer .uncommitted else []) ++
        if o.untracked then answer .untracked else []).map fun p => ("/" :: r.top ++ p, ()))).keys := by
  simp only [List.forall_mem_cons, List.not_mem_nil, false_imp_iff, implies_true, and_true] at hq
  obtain ⟨⟨hn, ha⟩, ⟨hn', ha'⟩, hn'', ha''⟩ := hq
  unfold changedFiles
  rw [hplace]
  cases o.uncommitted <;> cases o.untracked <;>
    simp [hr, hn, ha, hn', ha', hn'', ha'', -List.contains_eq_mem] <;> rfl

namespace Request

variable {all matched : List Member} {files : List (List String)} {m : Member}

/-- The matched members that own one of some files, the owners being looked for among `all`. -/
def owning (all matched : List Member) (files : List (List String)) : List Member :=
  matched.filter fun m => files.any fun f => Member.ownerOf? all f = some m

theorem mem_owning : m ∈ owning all matched files ↔ m ∈ matched ∧ ∃ f ∈ files, Member.ownerOf? all f = some m := by
  simp [owning]

/-- Detection among the matched members looks for the owners among them. -/
theorem changedAmong_eq_owning (hn : (matched.map (·.name)).Nodup) :
    Member.changedAmong matched files = owning matched matched files := by
  refine List.filter_congr fun m hm => ?_
  rw [Bool.eq_iff_iff]
  simp only [List.contains_iff_mem, List.mem_map, List.mem_filterMap, List.any_eq_true, decide_eq_true_eq]
  constructor
  · rintro ⟨o, ⟨f, hf, ho⟩, hname⟩
    obtain ⟨i, hi⟩ := Member.exists_ownsAt ho
    obtain rfl := List.inj_on_of_nodup_map hn hi.mem hm hname
    exact ⟨f, hf, ho⟩
  · rintro ⟨f, hf, ho⟩
    exact ⟨m, ⟨f, hf, ho⟩, rfl⟩

/-- Members are told apart by their names, so that reporting names loses nothing. -/
theorem filter_contains_name (hn : (matched.map (·.name)).Nodup) (p : Member → Bool) :
    (matched.filter fun m => ((matched.filter p).map (·.name)).contains m.name) = matched.filter p := by
  refine List.filter_congr fun m hm => ?_
  rw [Bool.eq_iff_iff]
  simp only [List.contains_iff_mem, List.mem_map, List.mem_filter]
  constructor
  · rintro ⟨o, ⟨ho, hp⟩, hname⟩
    rwa [← List.inj_on_of_nodup_map hn ho hm hname]
  · exact fun hp => ⟨m, ⟨hm, hp⟩, rfl⟩

/-- A matched member that has changed is kept. -/
theorem owning_sublist (hsub : matched.Sublist all) (hn : (all.map Member.place).Nodup) (files : List (List String)) :
    (owning all matched files).Sublist (owning matched matched files) := by
  have hkept : owning all matched files = (owning matched matched files).filter fun m =>
      files.any fun f => Member.ownerOf? all f = some m := by
    unfold owning
    rw [List.filter_filter]
    refine List.filter_congr fun m hm => ?_
    rw [Bool.eq_iff_iff, Bool.and_eq_true, iff_self_and]
    simp only [List.any_eq_true, decide_eq_true_eq]
    rintro ⟨f, hf, ho⟩
    exact ⟨f, hf, Member.ownerOf?_of_mem hsub hn ho hm⟩
  rw [hkept]
  exact List.filter_sublist

/-- The matched members may be asked alone if and only if they are closed. -/
theorem owning_eq_iff_closed (hsub : matched.Sublist all) (hn : (all.map Member.place).Nodup) :
    (∀ files, owning matched matched files = owning all matched files) ↔ Member.Closed all matched := by
  constructor
  · intro h
    by_contra hopen
    obtain ⟨path, d, -, hd, hall, m, hm, hmatched⟩ := Member.exists_of_not_closed hsub hn hopen
    have hkept : m ∈ owning all matched [path] := h [path] ▸ mem_owning.2 ⟨hm, path, by simp, hmatched⟩
    obtain ⟨-, f, hf, ho⟩ := mem_owning.1 hkept
    obtain rfl := List.mem_singleton.1 hf
    exact hd (Option.some.inj (hall.symm.trans ho) ▸ hm)
  · intro h files
    refine List.filter_congr fun m hm => ?_
    simp only [h.ownerOf?_eq hsub hn, Option.filter_eq_some_iff, decide_eq_true_eq, hm, and_true]

section Detector

variable {r : Request} {load : Attempt Workspace} {filters : Filters} {w : Workspace} {spec : FilterSpec}
  {repository : Option Repository} {t : Tree} {options : ChangeOptions}

theorem matching_sublist : (matching spec w).Sublist w.members := List.filter_sublist

/-- With a repository for a detector, those members are left that own a changed file among the matched ones. -/
theorem leaves_detector (hc : r.changes = some options) (hn : (w.members.map (·.name)).Nodup)
    (hf : (Repository.changedFiles repository t w.root options).run.value = .ok files) :
    r.Leaves (Repository.detector repository t) w spec (owning (matching spec w) (matching spec w) files) := by
  have hnames : ((matching spec w).map (·.name)).Nodup := hn.sublist (matching_sublist.map _)
  by_cases hne : matching spec w = []
  · rw [hne]
    exact .unmatched hne
  · have hd : (Repository.detector repository t w.root (matching spec w) options).run.value =
        .ok ((Member.changedAmong (matching spec w) files).map (·.name)) :=
      Attempt.value_bind_eq_ok.2 ⟨files, hf, rfl⟩
    have hkept : (w.members.filter fun m =>
        spec.selects m.name && ((Member.changedAmong (matching spec w) files).map (·.name)).contains m.name) =
          owning (matching spec w) (matching spec w) files := by
      rw [changedAmong_eq_owning hnames]
      refine Eq.trans ?_ (filter_contains_name hnames _)
      simp only [owning, matching, List.filter_filter, Bool.and_comm]
    exact hkept ▸ .changed hc hne hd

/-- What a request for changed members comes to: the members that own a changed file among the matched ones are
selected, unless there are none.  A matched member that owns a changed file among all members is one of them; that
there are no others, whatever has changed, means that the matched members are closed. -/
theorem prepare_changed (r : Request) (load : Attempt Workspace) (filters : Filters) (hc : r.changes = some options)
    (hw : load.run.value = .ok w) (hs : r.filterSpec filters = .ok spec) (hnames : (w.members.map (·.name)).Nodup)
    (hplaces : (w.members.map Member.place).Nodup)
    (hf : (Repository.changedFiles repository t w.root options).run.value = .ok files) :
    (∀ p, (r.prepare load (Repository.detector repository t) filters).run.value = .ok (.ok p) →
        p.selected = owning (matching spec w) (matching spec w) files) ∧
      (∀ message, (r.prepare load (Repository.detector repository t) filters).run.value = .ok (.error message) →
        owning (matching spec w) (matching spec w) files = []) ∧
      (owning w.members (matching spec w) files).Sublist (owning (matching spec w) (matching spec w) files) ∧
      ((∀ files, owning (matching spec w) (matching spec w) files = owning w.members (matching spec w) files) ↔
        Member.Closed w.members (matching spec w)) := by
  have hleft : r.Leaves (Repository.detector repository t) w spec (owning (matching spec w) (matching spec w) files) :=
    leaves_detector hc hnames hf
  have hout := outcome_prepare r load (Repository.detector repository t) filters
  refine ⟨fun p hp => ?_, fun message hp => ?_, owning_sublist matching_sublist hplaces files,
    owning_eq_iff_closed matching_sublist hplaces⟩
  · rw [hp] at hout
    cases hout with
    | ready hw' hs' hl =>
      obtain rfl := Except.ok.inj (hw.symm.trans hw')
      obtain rfl := Except.ok.inj (hs.symm.trans hs')
      exact hl.unique hleft
  · rw [hp] at hout
    cases hout with
    | nothing hw' hs' hl =>
      obtain rfl := Except.ok.inj (hw.symm.trans hw')
      obtain rfl := Except.ok.inj (hs.symm.trans hs')
      exact hleft.unique hl

/-- A file that a branch has added to the inner of two members, both of which are matched. -/
theorem prepare_changed_on_branch :
    let outer : Member := ⟨"outer", "outer", "/ws/outer", none, none⟩
    let inner : Member := ⟨"inner", "outer/inner", "/ws/outer/inner", none, none⟩
    let ws : Workspace := ⟨"/ws", [outer, inner], ∅⟩
    let added : Listing := SortedMap.ofList [(["outer", "inner", "lib.js"], .file [])]
    let repository : Repository :=
      ⟨["ws"], [⟨[], ∅⟩, ⟨[0], added⟩], SortedMap.ofList [("main", 0), ("topic", 1)], ∅, .branch "topic", added⟩
    let t : Tree := .dir [("ws", .dir [(".git", .dir [("HEAD", .file (Text.encode repository.headText) 0)])])]
    let committed : ChangeOptions := { uncommitted := false, untracked := false }
    let r : Request := ⟨none, false, some committed⟩
    ∃ p, (r.prepare (pure ws) (Repository.detector (some repository) t) ∅).run.value = .ok (.ok p) ∧
      p.selected = [inner] := by
  intro outer inner ws added repository t committed r
  have hf : (Repository.changedFiles (some repository) t ws.root committed).run.value =
      .ok [["/", "ws", "outer", "inner", "lib.js"]] := by
    decide +kernel
  have hkept : owning (matching .all ws) (matching .all ws) [["/", "ws", "outer", "inner", "lib.js"]] = [inner] := by
    decide +kernel
  have hnames : (ws.members.map (·.name)).Nodup := by decide +kernel
  have hl : r.Leaves (Repository.detector (some repository) t) ws .all [inner] := by
    rw [← hkept]
    exact leaves_detector rfl hnames hf
  have hp : (r.prepare (pure ws) (Repository.detector (some repository) t) ∅).run.value =
      .ok (.ok ⟨ws, [inner], .flat [inner]⟩) :=
    Outcome.value_prepare (.ready rfl rfl hl (List.cons_ne_nil _ _) nofun rfl)
  have hlaw := prepare_changed r (pure ws) ∅ rfl rfl rfl hnames (by decide +kernel) hf
  exact ⟨_, hp, (hlaw.1 _ hp).trans hkept⟩

/-- A file of a member that the filter leaves out selects the member around it. -/
theorem prepare_changed_left_out :
    let outer : Member := ⟨"outer", "outer", "/ws/outer", none, none⟩
    let inner : Member := ⟨"inner", "outer/inner", "/ws/outer/inner", none, none⟩
    let ws : Workspace := ⟨"/ws", [outer, inner], ∅⟩
    let repository : Repository :=
      ⟨["ws"], [⟨[], ∅⟩], SortedMap.ofList [("main", 0)], ∅, .branch "main", ∅⟩
    let entries : List (String × Node) := [(".git", .dir [("HEAD", .file (Text.encode repository.headText) 0)]),
      ("outer", .dir [("inner", .dir [("lib.js", .file [] 0)])])]
    let t : Tree := .dir [("ws", .dir entries)]
    let r : Request := ⟨some "outer", false, some {}⟩
    let files : List (List String) := [["/", "ws", "outer", "inner", "lib.js"]]
    (ws.members.map Member.place).Nodup ∧
      (Repository.changedFiles (some repository) t ws.root {}).run.value = .ok files ∧
      (∀ f ∈ files, Member.ownerOf? ws.members f = some inner) ∧
      ∃ p, (r.prepare (pure ws) (Repository.detector (some repository) t) ∅).run.value = .ok (.ok p) ∧
        p.selected = [outer] ∧ ¬∃ f ∈ files, Member.ownerOf? ws.members f = some outer := by
  intro outer inner ws repository entries t r files
  have hf : (Repository.changedFiles (some repository) t ws.root {}).run.value = .ok files := by
    have hin : (repository.isInPlace t && repository.top.isPrefixOf ["ws"] &&
        !(repository.top ++ [Repository.ownDir]).isPrefixOf ["ws"]) = true := by
      decide +kernel
    have hheld : Repository.holding? (some repository) t ["ws"] = some repository := by
      simp only [Repository.holding?, Option.filter_some, hin, if_true]
    have huntracked : repository.answer? t .untracked = some [["outer", "inner", "lib.js"]] := by cbv
    have huncommitted : repository.answer? t .uncommitted = some [] := by cbv
    have hcommitted : repository.answer? t (.committed "main") = some [] := by decide +kernel
    have hplace : t.resolve [] ws.root = .ok (["ws"], .dir entries) := by cbv
    refine (Repository.value_changedFiles (fun q => (repository.answer? t q).getD []) hplace hheld ?_).trans ?_
    · simp only [List.forall_mem_cons, List.not_mem_nil, false_imp_iff, implies_true, and_true, huntracked,
        huncommitted, hcommitted, Option.getD_some]
      decide +kernel
    · simp only [huntracked, huncommitted, hcommitted, Option.getD_some]
      decide +kernel
  have howner : ∀ f ∈ files, Member.ownerOf? ws.members f = some inner := by decide +kernel
  have hkept : owning (matching (.literal ["outer"]) ws) (matching (.literal ["outer"]) ws) files = [outer] := by
    decide +kernel
  have hl : r.Leaves (Repository.detector (some repository) t) ws (.literal ["outer"]) [outer] := by
    rw [← hkept]
    exact leaves_detector rfl (by decide +kernel) hf
  refine ⟨by decide +kernel, hf, howner, _, Outcome.value_prepare
    (.ready rfl rfl hl (List.cons_ne_nil _ _) (fun h => by cases h) rfl), rfl, by decide +kernel⟩

end Detector

end Request

end ScriptRunner
