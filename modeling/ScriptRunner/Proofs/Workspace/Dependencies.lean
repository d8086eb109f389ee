import Mathlib.Data.List.Forall2
import ScriptRunner.Proofs.Order.Cycles
import ScriptRunner.Proofs.Workspace.Loading
import ScriptRunner.Repository.Detection

/-!
# The dependencies of a loaded workspace

A loaded workspace has one entry of dependencies for each of its members.  It is about the manifest that stands in the
member's own directory, and holds the names of other members that are keys of one of the manifest's four dependency
tables (`Manifest.Mentions`).  No member depends on itself, so that a cycle among members takes at least two of them
(`Workspace.dependencies_of_load`).
-/

namespace ScriptRunner

open Relation

/-! ### Fields of a record -/

theorem option_mapM_eq_some_iff {α β : Type} {f : α → Option β} {as : List α} {bs : List β} :
    as.mapM f = some bs ↔ List.Forall₂ (fun a b => f a = some b) as bs := by
  induction as generalizing bs with
  | nil => simp [eq_comm]
  | cons a as ih =>
    simp only [List.mapM_cons, List.forall₂_cons_left_iff, ← ih]
    cases f a <;> cases as.mapM f <;> simp [eq_comm]

/-- A record has a value in a field: under the name of the field in a table, at the place of the field in a list. -/
inductive Document.HasField (names : List String) (name : String) : Document → Document → Prop
  | named {entries : List (String × Document)} {v : Document} (h : (name, v) ∈ entries) :
    HasField names name (.table entries) v
  | placed {items : List Document} {v : Document} {i : Nat} (hname : names[i]? = some name)
    (h : items[i]? = some v) : HasField names name (.list items) v

namespace Manifest

open Document

/-- The fields whose keys are the names of packages that a manifest depends on. -/
def dependencyFields : List String :=
  ["dependencies", "devDependencies", "peerDependencies", "optionalDependencies"]

/-- A name is a key of one of the dependency tables of a manifest. -/
def Mentions (d : Document) (name : String) : Prop :=
  ∃ field ∈ dependencyFields, ∃ entries, HasField fieldNames field d (.table entries) ∧ name ∈ entries.map (·.1)

/-- What is read of a field is its value in the record. -/
theorem hasField_iff {names : List String} {d v : Document} {vs : List (Option Document)} (hn : names.Nodup)
    (h : fields? jsonConventions names d = some vs) {i : Nat} {name : String} (hi : names[i]? = some name) :
    HasField names name d v ↔ vs[i]? = some (some v) := by
  obtain ⟨hlt, hget⟩ := List.getElem?_eq_some_iff.1 hi
  cases d with
  | list items =>
    simp only [fields?] at h
    split at h
    · exact nomatch h
    · rw [← Option.some.inj h, List.getElem?_map, List.getElem?_range hlt, Option.map_some, Option.some.injEq]
      constructor
      · rintro (_ | ⟨hj, hv⟩)
        rwa [(List.getElem?_inj hlt hn).1 (hi.trans hj.symm)]
      · exact .placed hi
  | table entries =>
    have hall := List.forall₂_iff_get.1 (option_mapM_eq_some_iff.1 h)
    have hlt' : i < vs.length := hall.1 ▸ hlt
    have hread := hall.2 i hlt hlt'
    simp only [List.get_eq_getElem, hget] at hread
    have hfield : HasField names name (.table entries) v ↔ (name, v) ∈ entries.filter (·.1 = name) := by
      simp only [List.mem_filter, decide_true, and_true]
      exact ⟨fun h => by cases h; assumption, .named⟩
    rw [List.getElem?_eq_getElem hlt', Option.some.injEq, hfield]
    split at hread
    · rename_i hnone
      rw [hnone, ← Option.some.inj hread]
      simp
    · rename_i e hone
      have hmem : e ∈ entries.filter (·.1 = name) := hone ▸ List.mem_singleton_self e
      have he : e.1 = name := of_decide_eq_true (List.mem_filter.1 hmem).2
      rw [hone, ← Option.some.inj hread, List.mem_singleton, Option.some.injEq, Prod.ext_iff, he]
      simp [eq_comm]
    · exact nomatch hread
  | _ => exact nomatch h

theorem mem_of_field?_keys? {v : Option Document} {keys : List String} (h : field? keys? [] v = some keys)
    {name : String} : name ∈ keys ↔ ∃ entries, v = some (.table entries) ∧ name ∈ entries.map (·.1) := by
  cases v with
  | none => simp [← Option.some.inj h]
  | some d =>
    obtain ⟨read, hread, rfl⟩ := Option.map_eq_some_iff.1 h
    cases d with
    | table entries =>
      have hkeys : entries.map (·.1) = read.map (·.1) := by
        rw [← List.forall₂_eq_eq_eq, List.forall₂_map_left_iff, List.forall₂_map_right_iff]
        refine (option_mapM_eq_some_iff.1 hread).imp fun e r hr => ?_
        obtain ⟨_, -, rfl⟩ := Option.map_eq_some_iff.1 hr
        rfl
      rw [← hkeys]
      simp only [Option.some.injEq, table.injEq, exists_eq_left']
    | _ => exact nomatch hread

/-- A manifest depends on the keys of its dependency tables. -/
theorem mem_dependencies_iff {d : Document} {m : Manifest} (h : ofDocument? d = some m) {name : String} :
    name ∈ m.dependencies ↔ Mentions d name := by
  unfold ofDocument? at h
  split at h
  case h_2 => exact nomatch h
  rename_i nameField scriptField runtime development peer optional workspaceField hfields
  simp only [Option.bind_eq_bind, Option.bind_eq_some_iff] at h
  obtain ⟨_, -, _, -, runtimes, hruntime, developments, hdevelopment, peers, hpeer, optionals, hoptional, _, -, h⟩ := h
  obtain rfl := Option.some.inj h
  have hkeys : ∀ (i : Nat) {field : String} {v : Option Document} {keys : List String}, fieldNames[i]? = some field →
      [nameField, scriptField, runtime, development, peer, optional, workspaceField][i]? = some v →
      field? keys? [] v = some keys →
      (name ∈ keys ↔ ∃ entries, HasField fieldNames field d (.table entries) ∧ name ∈ entries.map (·.1)) := by
    intro i field v keys hi hv hread
    simp only [mem_of_field?_keys? hread, hasField_iff (by decide) hfields hi, hv, Option.some.injEq]
  simp only [SortedMap.mem_keys_ofList, List.map_map, Function.comp_def, List.map_id', List.mem_append, Mentions,
    dependencyFields, List.exists_mem_cons_iff, List.not_mem_nil, false_and, exists_false, or_false]
  rw [hkeys 2 rfl rfl hruntime, hkeys 3 rfl rfl hdevelopment, hkeys 4 rfl rfl hpeer, hkeys 5 rfl rfl hoptional,
    or_assoc, or_assoc]

end Manifest

/-! ### Failures of a detector -/

/-- The detector does not fail with a cycle of dependencies, which is none of its business. -/
def Detector.RaisesNoCycle (detect : Detector) : Prop :=
  ∀ root members options names, (detect root members options).run.value ≠ .error (.dependencyCycle names)

theorem Attempt.exists_of_mapM_eq_error {α β : Type} {f : α → Attempt β} {as : List α} {e : Failure}
    (h : (as.mapM f).run.value = .error e) : ∃ a ∈ as, (f a).run.value = .error e := by
  induction as with
  | nil => exact nomatch h
  | cons a as ih =>
    rw [List.mapM_cons] at h
    rcases Attempt.value_bind_eq_error.1 h with h | ⟨b, -, h⟩
    · exact ⟨a, List.mem_cons_self, h⟩
    · rcases Attempt.value_bind_eq_error.1 h with h | ⟨_, -, h⟩
      · obtain ⟨a', ha', h⟩ := ih h
        exact ⟨a', List.mem_cons_of_mem _ ha', h⟩
      · exact nomatch h

namespace Repository

/-- A repository fails for reasons of its own. -/
theorem changedFiles_eq_error {repository : Option Repository} {t : Tree} {root : String} {o : ChangeOptions}
    {e : Failure} (h : (changedFiles repository t root o).run.value = .error e) : ∃ reasons, e = .other reasons := by
  have hthrow : ∀ {α : Type} {reasons : List String}, (throw (.other reasons) : Attempt α).run.value = .error e →
      ∃ reasons, e = .other reasons := fun h => ⟨_, (Except.error.inj h).symm⟩
  unfold changedFiles at h
  dsimp only at h
  generalize t.resolve [] root = resolved at h
  rcases resolved with fault | ⟨place, node⟩
  · rcases Attempt.value_bind_eq_error.1 h with h | ⟨_, h, -⟩
    · exact hthrow h
    · exact nomatch h
  · cases node with
    | dir entries =>
      simp only [pure_bind] at h
      split at h
      · rcases Attempt.value_bind_eq_error.1 h with h | ⟨_, -, h⟩
        · obtain ⟨q, -, h⟩ := Attempt.exists_of_mapM_eq_error h
          split at h
          · exact hthrow h
          · split at h
            · exact nomatch h
            · exact hthrow h
        · rcases Attempt.value_bind_eq_error.1 h with h | ⟨_, -, h⟩ <;> exact nomatch h
      · exact hthrow h
    | _ =>
      rcases Attempt.value_bind_eq_error.1 h with h | ⟨_, h, -⟩
      · exact hthrow h
      · exact nomatch h

theorem detector_raisesNoCycle (repository : Option Repository) (t : Tree) : (detector repository t).RaisesNoCycle := by
  intro root members options names h
  rcases Attempt.value_bind_eq_error.1 h with h | ⟨files, -, h⟩
  · obtain ⟨reasons, hne⟩ := changedFiles_eq_error h
    exact nomatch hne
  · exact nomatch h

end Repository

namespace Discovery

variable {found : Found}

/-- The map has one entry for each member that is found. -/
theorem keys_dependenciesOf_perm (hn : (found.map (·.1.name)).Nodup) :
    (dependenciesOf found).keys.Perm (found.map (·.1.name)) := by
  refine (List.perm_ext_iff_of_nodup (SortedMap.nodup_keys _) hn).2 fun name => ?_
  rw [dependenciesOf, SortedMap.mem_keys_ofList, List.map_map]
  rfl

theorem get?_dependenciesOf (hn : (found.map (·.1.name)).Nodup) {e : Member × Manifest} (he : e ∈ found) :
    (dependenciesOf found).get? e.1.name =
      some (e.2.dependencies.filter fun d => d ≠ e.1.name && (found.map (·.1.name)).contains d) := by
  obtain ⟨ds, hds⟩ := Option.isSome_iff_exists.1
    (SortedMap.contains_ofList (List.mem_map_of_mem (f := fun f : Member × Manifest =>
      (f.1.name, f.2.dependencies.filter fun d => d ≠ f.1.name && (found.map (·.1.name)).contains d)) he))
  obtain ⟨f, hf, hpair⟩ := List.mem_map.1 (SortedMap.mem_of_get?_ofList hds)
  obtain ⟨hname, -⟩ := Prod.mk.inj hpair
  obtain rfl := List.inj_on_of_nodup_map hn hf he hname
  exact hds.trans (congrArg some (Prod.mk.inj hpair).2.symm)

/-- A member depends on the other members that its manifest depends on. -/
theorem depends_dependenciesOf (hn : (found.map (·.1.name)).Nodup) {e : Member × Manifest} (he : e ∈ found)
    {name : String} : Depends (dependenciesOf found) e.1.name name ↔
      name ≠ e.1.name ∧ name ∈ found.map (·.1.name) ∧ name ∈ e.2.dependencies := by
  simp only [Depends, get?_dependenciesOf hn he, Option.some.injEq, exists_eq_left', List.mem_filter,
    Bool.and_eq_true, decide_eq_true_eq, List.contains_iff_mem]
  exact and_comm.trans and_assoc

theorem not_depends_self (hn : (found.map (·.1.name)).Nodup) (name : String) :
    ¬Depends (dependenciesOf found) name name := by
  intro hself
  obtain ⟨ds, hds, -⟩ := id hself
  have hname : name ∈ found.map (·.1.name) :=
    (keys_dependenciesOf_perm hn).mem_iff.1 (SortedMap.contains_iff_mem_keys.1 (Option.isSome_of_mem hds))
  obtain ⟨e, he, rfl⟩ := List.mem_map.1 hname
  exact ((depends_dependenciesOf hn he).1 hself).1 rfl

end Discovery

/-! ### Cycles -/

section

variable {deps : Dependencies} (hirr : ∀ name, ¬Depends deps name name)

include hirr

theorem Graph.not_adj_self (selected : List Member) (i : Nat) : ¬(ofMembers selected deps).Adj i i := by
  rw [adj_ofMembers]
  rintro ⟨x, y, hx, hy, hd⟩
  exact hirr x (hx.name_unique hy ▸ hd)

/-- Where nothing depends on itself, a cycle goes on to another name. -/
theorem NameEdge.exists_ne_of_cycle {names : List String} {x : String} (h : TransGen (NameEdge names deps) x x) :
    ∃ y, y ≠ x ∧ TransGen (NameEdge names deps) y y := by
  obtain ⟨y, hxy, hyx⟩ := TransGen.head'_iff.1 h
  refine ⟨y, ?_, TransGen.tail' hyx hxy⟩
  rintro rfl
  exact hirr y hxy.2.2

omit hirr in
/-- Names on a cycle are names of members. -/
theorem NameEdge.exists_member {selected members : List Member} {x : String} (hsub : selected.Sublist members)
    (h : TransGen (NameEdge (selected.map (·.name)) deps) x x) : ∃ m ∈ members, m.name = x := by
  obtain ⟨_, hedge, -⟩ := TransGen.head'_iff.1 h
  obtain ⟨m, hm, rfl⟩ := List.mem_map.1 hedge.1
  exact ⟨m, hsub.subset hm, rfl⟩

end

namespace Request

/-- Unless the detector says so itself, a request fails with a cycle because there is one among selected members. -/
theorem cycle_of_prepare {r : Request} {load : Attempt Workspace} {detect : Detector} {filters : Filters}
    {names : List String} {w : Workspace} (hw : load.run.value = .ok w) (hd : detect.RaisesNoCycle)
    (h : (r.prepare load detect filters).run.value = .error (.dependencyCycle names)) :
    ∃ selected : List Member, selected.Sublist w.members ∧
      (∃ x, TransGen (NameEdge (selected.map (·.name)) w.dependencies) x x) ∧
      ∀ x, x ∈ names ↔ TransGen (NameEdge (selected.map (·.name)) w.dependencies) x x := by
  have hout := outcome_prepare r load detect filters
  generalize ho : (r.prepare load detect filters).run.value = o at hout
  rw [h] at ho
  cases hout with
  | loading hw' => exact nomatch hw.symm.trans hw'
  | @filtering _ err => cases err <;> exact nomatch ho
  | detecting _ _ hf =>
    obtain ⟨options, -, -, hf⟩ := hf
    obtain rfl := Except.error.inj ho
    exact absurd hf (hd _ _ _ _)
  | cyclic hw' _ hl _ hc _ hn =>
    obtain rfl := Except.ok.inj (hw.symm.trans hw')
    obtain rfl := Failure.dependencyCycle.inj (Except.error.inj ho)
    exact ⟨_, hl.sublist, hc, hn⟩
  | nothing | ready => exact nomatch ho

end Request

/-- The entries of a loaded workspace are those of its members: one for each, with the names of other members that the
manifest of the member's own directory mentions.  No position of a graph of members has an edge to itself, so that a
cycle found while preparing a request has at least two members on it. -/
theorem Workspace.dependencies_of_load {t : Tree} {cwd : List String} {configured : Option (List String)}
    {path : String} {w : Workspace} (h : (Workspace.load t cwd configured path).run.value = .ok w) :
    (w.members.map (·.name)).Nodup ∧ w.dependencies.keys.Perm (w.members.map (·.name)) ∧
      (∀ m ∈ w.members, ∃ text doc, t.readText (Path.join m.dir Manifest.fileName) = .ok text ∧
        Json.parse? text = some doc ∧
        ∀ name, Depends w.dependencies m.name name ↔
          name ≠ m.name ∧ name ∈ w.members.map (·.name) ∧ Manifest.Mentions doc name) ∧
      (∀ (selected : List Member) (i : Nat), ¬(Graph.ofMembers selected w.dependencies).Adj i i) ∧
      ∀ (r : Request) (detect : Detector) (filters : Filters) (names : List String), detect.RaisesNoCycle →
        (r.prepare (Workspace.load t cwd configured path) detect filters).run.value = .error (.dependencyCycle names) →
        ∃ m ∈ w.members, ∃ m' ∈ w.members, m.name ≠ m'.name ∧ m.name ∈ names ∧ m'.name ∈ names := by
  obtain ⟨root, _, globs, dirs, -, -, -, -, -, rfl⟩ := load_eq_ok_iff.1 h
  generalize hfound : (dirs.filterMap (Discovery.found? t root globs)).eraseDupsBy Discovery.sameName = found at h ⊢
  have hn : (found.map (·.1.name)).Nodup := hfound ▸ Discovery.nodup_names_firsts _
  have hnames : (ofFound root found).members.map (·.name) = found.map (·.1.name) := List.map_map
  have hirr : ∀ name, ¬Depends (ofFound root found).dependencies name name := Discovery.not_depends_self hn
  rw [hnames]
  refine ⟨hn, Discovery.keys_dependenciesOf_perm hn, fun m hm => ?_, Graph.not_adj_self hirr,
    fun r detect filters names hdetect hprepare => ?_⟩
  · obtain ⟨e, he, rfl⟩ := List.mem_map.1 hm
    obtain ⟨rel, -, hrel⟩ := List.mem_filterMap.1 (Discovery.mem_of_mem_firsts (hfound ▸ he))
    obtain ⟨-, hread, hmember⟩ := Discovery.found?_eq_some_iff.1 hrel
    obtain ⟨text, htext, hparse⟩ := (Manifest.read_eq_ok_iff.1 hread).2 _ rfl
    obtain ⟨doc, hdoc, hmanifest⟩ := Option.bind_eq_some_iff.1 hparse
    have hdir : e.1.dir = Path.join root rel := congrArg Member.dir hmember
    refine ⟨text, doc, hdir ▸ htext, hdoc, fun name => ?_⟩
    rw [← Manifest.mem_dependencies_iff hmanifest]
    exact Discovery.depends_dependenciesOf hn he
  · obtain ⟨selected, hsub, ⟨x, hx⟩, hmem⟩ := Request.cycle_of_prepare h hdetect hprepare
    obtain ⟨y, hne, hy⟩ := NameEdge.exists_ne_of_cycle hirr hx
    obtain ⟨m, hm, rfl⟩ := NameEdge.exists_member hsub hy
    obtain ⟨m', hm', rfl⟩ := NameEdge.exists_member hsub hx
    exact ⟨m, hm, m', hm', hne, (hmem _).2 hy, (hmem _).2 hx⟩

/-- Two directories with the name `core`, of which the second is dropped with what it depends on, and a member that
lists itself and is on a cycle with the first. -/
theorem Workspace.dependencies_of_load_duplicate :
    let package (manifest : String) : Node := .dir [(Manifest.fileName, .file (Text.encode manifest) 0)]
    let t : Tree := .dir [("core", package "\x7b\"dependencies\": \x7b\"web\": 1\x7d\x7d"),
      ("docs", package "\x7b\"name\": \"core\", \"dependencies\": \x7b\"lib\": 1\x7d\x7d"), ("lib", package "\x7b\x7d"),
      ("web", package "\x7b\"devDependencies\": \x7b\"core\": 1, \"web\": 1\x7d\x7d")]
    let load := Workspace.load t [] (some ["*"]) "/"
    ∃ w, load.run.value = .ok w ∧ w.members.map (·.name) = ["core", "lib", "web"] ∧
      w.dependencies.keys.Perm ["core", "lib", "web"] ∧ Depends w.dependencies "core" "web" ∧
      ¬Depends w.dependencies "core" "lib" ∧ ¬Depends w.dependencies "web" "web" ∧
      ∃ names, (Request.prepare {} load (Repository.detector none t) ∅).run.value = .error (.dependencyCycle names) ∧
        ∃ m ∈ w.members, ∃ m' ∈ w.members, m.name ≠ m'.name ∧ m.name ∈ names ∧ m'.name ∈ names := by
  intro package t load
  have hload : (load.run.value.toOption.map fun w => (w.members.map (·.name), w.dependencies)) =
      some (["core", "lib", "web"], SortedMap.ofList [("core", ["web"]), ("lib", []), ("web", ["core"])]) := by
    decide +kernel
  obtain ⟨w, hw, hparts⟩ := Option.map_eq_some_iff.1 hload
  obtain ⟨hnames, hdeps⟩ := Prod.mk.inj hparts
  have hvalue : load.run.value = .ok w := except_toOption_eq_some.1 hw
  obtain ⟨-, hkeys, hdepends, -, hcycles⟩ := Workspace.dependencies_of_load hvalue
  have hcore : w.dependencies.get? "core" = some ["web"] := by
    rw [hdeps]
    decide +kernel
  have hweb : w.dependencies.get? "web" = some ["core"] := by
    rw [hdeps]
    decide +kernel
  have hcycle : TransGen (NameEdge (w.members.map (·.name)) w.dependencies) "core" "core" := by
    rw [hnames]
    exact .tail (.single ⟨by simp, by simp, _, hweb, by simp⟩) ⟨by simp, by simp, _, hcore, by simp⟩
  refine ⟨w, hvalue, hnames, hnames ▸ hkeys, ⟨_, hcore, by simp⟩, ?_, fun h => ?_, ?_⟩
  · rintro ⟨ds, hds, hmem⟩
    obtain rfl := Option.some.inj (hcore.symm.trans hds)
    simp at hmem
  · obtain ⟨m, hm, hname⟩ := List.mem_map.1 (hnames ▸ (by simp : "web" ∈ ["core", "lib", "web"]))
    obtain ⟨_, _, -, -, hedges⟩ := hdepends m hm
    exact ((hedges "web").1 (hname ▸ h)).1 hname.symm
  · have hall : w.members.filter (fun m => FilterSpec.all.selects m.name) = w.members :=
      List.filter_eq_self.2 fun _ _ => rfl
    have hleaves : Request.Leaves {} (Repository.detector none t) w .all
        (w.members.filter fun m => FilterSpec.all.selects m.name) := .unrestricted rfl
    rw [hall] at hleaves
    have hspec : Request.filterSpec {} ∅ = .ok .all := rfl
    have hp := Request.Outcome.value_prepare (.cyclic hvalue hspec hleaves rfl ⟨_, hcycle⟩
      Plan.cycleNames_ofMembers_ascending fun _ => Plan.mem_cycleNames_ofMembers)
    exact ⟨_, hp, hcycles _ _ _ _ (Repository.detector_raisesNoCycle none t) hp⟩

end ScriptRunner
