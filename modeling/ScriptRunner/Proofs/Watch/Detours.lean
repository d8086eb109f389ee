import ScriptRunner.Proofs.Planning.Preparation
import ScriptRunner.Proofs.Watch.Affected
import ScriptRunner.Workspace.Discovery

/-!
# Dependents behind members that are left out

The watcher of a prepared request knows the members that the filter has left, and its graph has only their edges.  A
chain of dependencies that leaves the selection (`Away`) and comes back to it is cut, and what follows is not run again
unless a chain within the selection leads there as well (`Bridged`).  A chain of the whole workspace is cut into its
ways within the selection and its ways outside (`exists_last_selected`), which gives that changes reach all of their
selected dependents exactly in a bridged selection.
-/

namespace ScriptRunner

open Relation

namespace Watcher

variable {all selected : List String} {deps : Dependencies} {x y z : String}

/-- A chain of the workspace has left the selection at `x` and is at `y`, where it has not come back. -/
inductive Away (all selected : List String) (deps : Dependencies) (x : String) : String → Prop
  | leave {y : String} (h : NameEdge all deps x y) (hy : y ∉ selected) : Away all selected deps x y
  | stray {y z : String} (h : Away all selected deps x y) (hz : NameEdge all deps y z) (hout : z ∉ selected) :
    Away all selected deps x z

/-- Where a chain leaves the selection and comes back, a chain within the selection leads to the same place. -/
def Bridged (all selected : List String) (deps : Dependencies) : Prop :=
  ∀ x y z, x ∈ selected → Away all selected deps x y → NameEdge all deps y z → z ∈ selected →
    ReflTransGen (NameEdge selected deps) x z

theorem Away.chain (h : Away all selected deps x y) : ReflTransGen (NameEdge all deps) x y := by
  induction h with
  | leave h => exact .single h
  | stray _ hz _ ih => exact ih.tail hz

theorem nameEdge_within (h : NameEdge all deps x y) (hx : x ∈ selected) (hy : y ∈ selected) :
    NameEdge selected deps x y :=
  ⟨hx, hy, h.2.2⟩

/-- The selected name that a chain has come to last, and its way from there. -/
theorem exists_last_selected (hb : Bridged all selected deps) (hx : x ∈ selected)
    (h : ReflTransGen (NameEdge all deps) x z) :
    ∃ y ∈ selected, ReflTransGen (NameEdge selected deps) x y ∧
      (y = z ∨ z ∉ selected ∧ Away all selected deps y z) := by
  induction h with
  | refl => exact ⟨x, hx, .refl, .inl rfl⟩
  | @tail u v _ huv ih =>
    obtain ⟨y, hy, hreach, hu⟩ := ih
    by_cases hv : v ∈ selected
    · refine ⟨v, hv, ?_, .inl rfl⟩
      rcases hu with rfl | ⟨-, haway⟩
      · exact hreach.tail (nameEdge_within huv hy hv)
      · exact hreach.trans (hb y u v hy haway huv hv)
    · refine ⟨y, hy, hreach, .inr ⟨hv, ?_⟩⟩
      rcases hu with rfl | ⟨-, haway⟩
      · exact .leave huv hv
      · exact .stray haway huv hv

/-- In a bridged selection no chain between selected names needs the others. -/
theorem Bridged.chain (hb : Bridged all selected deps) (hx : x ∈ selected) (hz : z ∈ selected)
    (h : ReflTransGen (NameEdge all deps) x z) : ReflTransGen (NameEdge selected deps) x z := by
  obtain ⟨y, -, hreach, rfl | ⟨hout, -⟩⟩ := exists_last_selected hb hx h
  · exact hreach
  · exact absurd hz hout

/-- A selection that holds the dependents of its members is bridged. -/
theorem bridged_of_dependents (h : ∀ x y, x ∈ selected → NameEdge all deps x y → y ∈ selected) :
    Bridged all selected deps := by
  intro x y z hx haway
  cases haway with
  | leave hxy hy => exact absurd (h x y hx hxy) hy
  | stray haway =>
    exfalso
    clear * - h hx haway
    induction haway with
    | leave hxy hy => exact hy (h x _ hx hxy)
    | stray _ _ _ ih => exact ih

variable {r : Request} {load : Attempt Workspace} {detect : Detector} {filters : Filters} {p : Prepared}
  {settings : WatchSettings} {w : Watcher}

/-- After changes, the watcher of a prepared request runs again what they reach within the selection.  That is every
selected member that depends on a changed one through the workspace, whatever has changed, exactly if the selection is
bridged; one that holds the dependents of its members is. -/
theorem reaches_dependents_iff_bridged (hp : (r.prepare load detect filters).run.value = .ok (.ok p))
    (hw : ofSettings p.selected p.workspace.dependencies p.plan settings = .ok w) (hr : settings.rerun = .affected) :
    let all := p.workspace.members.map (·.name)
    let selected := p.selected.map (·.name)
    let deps := p.workspace.dependencies
    (∀ changes : List Change, (∀ c ∈ changes, c.member ∈ p.selected) →
      ∀ m, m ∈ (w.planFor changes).order ↔ Reached p.selected deps changes m) ∧
    ((∀ changes : List Change, (∀ c ∈ changes, c.member ∈ p.selected) → ∀ m ∈ p.selected,
        Reached p.workspace.members deps changes m → m ∈ (w.planFor changes).order) ↔ Bridged all selected deps) ∧
    ((∀ x y, x ∈ selected → NameEdge all deps x y → y ∈ selected) → Bridged all selected deps) := by
  intro all selected deps
  have hready := Request.outcome_prepare r load detect filters
  rw [hp] at hready
  obtain ⟨-, hperm, hsub⟩ := hready.ready_perm
  have hrun : ∀ {changes : List Change}, (∀ c ∈ changes, c.member ∈ p.selected) →
      ∀ m, m ∈ (w.planFor changes).order ↔ Reached p.selected deps changes m :=
    fun hc m => mem_planFor_iff_of_perm hperm hw hr hc
  refine ⟨fun _ => hrun, ⟨fun h => ?_, fun hb => ?_⟩, bridged_of_dependents⟩
  · intro x y z hx haway hyz hz
    obtain ⟨mx, hmx, rfl⟩ := List.mem_map.1 hx
    obtain ⟨mz, hmz, rfl⟩ := List.mem_map.1 hz
    -- a change in the member that the chain starts from
    have hc : ∀ c ∈ [(⟨[], .modified, mx⟩ : Change)], c.member ∈ p.selected := by simpa using hmx
    have hreached : Reached p.workspace.members deps [⟨[], .modified, mx⟩] mz :=
      ⟨hsub.subset hmz, _, List.mem_singleton_self _, haway.chain.tail hyz⟩
    obtain ⟨-, c, hmem, hchain⟩ := (hrun hc mz).1 (h _ hc mz hmz hreached)
    obtain rfl := List.mem_singleton.1 hmem
    exact hchain
  · intro changes hc m hm hreached
    obtain ⟨-, c, hmem, hchain⟩ := hreached
    have hwithin := hb.chain (List.mem_map_of_mem (hc c hmem)) (List.mem_map_of_mem hm) hchain
    exact (hrun hc m).2 ⟨hm, c, hmem, hwithin⟩

/-- A chain of three members without its first. -/
theorem reaches_dependents_iff_bridged_tail :
    let app : Member := ⟨"app", "app", "/ws/app", none, none⟩
    let core : Member := ⟨"core", "core", "/ws/core", none, none⟩
    let mid : Member := ⟨"mid", "mid", "/ws/mid", none, none⟩
    let deps : Dependencies := SortedMap.ofList [("app", ["mid"]), ("mid", ["core"])]
    let w : Watcher := ⟨[app, mid], Graph.ofMembers [app, mid] deps, .flat [app, mid], .affected, ⟨[], false⟩⟩
    let changes : List Change := [⟨["/", "ws", "mid", "lib.js"], .modified, mid⟩]
    Bridged ["app", "core", "mid"] ["app", "mid"] deps ∧ Reached [app, core, mid] deps changes app ∧
      app ∈ (w.planFor changes).order := by
  intro app core mid deps w changes
  have hkept : Request.matching (.literal ["app", "mid"]) ⟨"/ws", [app, core, mid], deps⟩ = [app, mid] := by
    decide +kernel
  have hp : (Request.prepare ⟨some "app,mid", false, none⟩ (pure ⟨"/ws", [app, core, mid], deps⟩)
      (fun _ _ _ => pure []) ∅).run.value =
        .ok (.ok ⟨⟨"/ws", [app, core, mid], deps⟩, [app, mid], .flat [app, mid]⟩) := by
    have hs : Request.filterSpec ⟨some "app,mid", false, none⟩ ∅ = .ok (.literal ["app", "mid"]) := by decide +kernel
    rw [Request.prepare_flat rfl hs rfl rfl (by rw [hkept]; exact List.cons_ne_nil _ _), hkept]
  have hw : ofSettings [app, mid] deps (.flat [app, mid]) { exclude := [], rerun := .affected } = .ok w := rfl
  obtain ⟨-, hiff, hclosed⟩ := reaches_dependents_iff_bridged hp hw rfl
  have hbridged : Bridged ["app", "core", "mid"] ["app", "mid"] deps := by
    refine hclosed fun x y _ hxy => ?_
    obtain ⟨-, hy, ds, hds, -⟩ := hxy
    -- nothing is known of what `core` depends on
    have hcore : y ≠ "core" := by
      rintro rfl
      cases hds
    simpa [app, core, mid, hcore] using hy
  have hreached : Reached [app, core, mid] deps changes app :=
    ⟨.head _, _, List.mem_singleton_self _, .single ⟨by decide, by decide, ["mid"], by decide +kernel, by decide⟩⟩
  have hchanged : ∀ c ∈ changes, c.member ∈ [app, mid] := by simp [changes]
  exact ⟨hbridged, hreached, hiff.2 hbridged changes hchanged app (.head _) hreached⟩

/-- The member between two others is left out, and its dependent is not run again. -/
theorem reaches_dependents_iff_bridged_left_out :
    let package (text : String) : Node := .dir [("package.json", .file text.toUTF8.data.toList 0)]
    let tree : Tree := .dir [("ws", .dir [("app", package "\x7b\"dependencies\": \x7b\"mid\": \"1\"\x7d\x7d"),
      ("core", package "\x7b\x7d"), ("mid", package "\x7b\"dependencies\": \x7b\"core\": \"1\"\x7d\x7d")])]
    let app : Member := ⟨"app", "app", "/ws/app", some "/ws/app/package.json", none⟩
    let core : Member := ⟨"core", "core", "/ws/core", some "/ws/core/package.json", none⟩
    let changes : List Change := [⟨["/", "ws", "core", "lib.js"], .modified, core⟩]
    ∃ p w, (Request.prepare ⟨some "app,core", true, none⟩ (Workspace.load tree [] (some ["*"]) "/ws")
        (fun _ _ _ => pure []) ∅).run.value = .ok (.ok p) ∧
      ofSettings p.selected p.workspace.dependencies p.plan { exclude := [], rerun := .affected } = .ok w ∧
      core ∈ p.selected ∧ app ∈ p.selected ∧
      Reached p.workspace.members p.workspace.dependencies changes app ∧
      (w.planFor changes).order = [core] := by
  intro package tree app core changes
  let mid : Member := ⟨"mid", "mid", "/ws/mid", some "/ws/mid/package.json", none⟩
  let deps : Dependencies := SortedMap.ofList [("app", ["mid"]), ("core", []), ("mid", ["core"])]
  let w : Watcher := ⟨[app, core], Graph.ofMembers [app, core] deps, .flat [app, core], .affected, ⟨[], false⟩⟩
  have hkept : (w.planFor changes).order = [core] := by cbv
  have hprep : ((Request.prepare ⟨some "app,core", true, none⟩ (Workspace.load tree [] (some ["*"]) "/ws")
      (fun _ _ _ => pure []) ∅).run.value.toOption.bind Except.toOption).any fun p =>
        decide (p.workspace.root = "/ws" ∧ p.workspace.members = [app, core, mid] ∧
          p.workspace.dependencies = deps ∧ p.selected = [app, core] ∧ p.plan = .flat [app, core]) := by
    decide +kernel
  obtain ⟨p, hp, hsame⟩ := (Option.any_eq_true _ _).1 hprep
  obtain ⟨prepared, hp, hprepared⟩ := Option.bind_eq_some_iff.1 hp
  obtain rfl := except_toOption_eq_some.1 hprepared
  obtain ⟨⟨root, members, deps'⟩, selected, plan⟩ := p
  obtain ⟨rfl, rfl, rfl, rfl, rfl⟩ := of_decide_eq_true hsame
  refine ⟨_, w, except_toOption_eq_some.1 hp, rfl, .tail _ (.head _), .head _,
    ⟨.head _, _, List.mem_singleton_self _, ?_⟩, hkept⟩
  have hmid : NameEdge ([app, core, mid].map (·.name)) deps "core" "mid" :=
    ⟨by decide, by decide, ["core"], rfl, by decide⟩
  have happ : NameEdge ([app, core, mid].map (·.name)) deps "mid" "app" :=
    ⟨by decide, by decide, ["mid"], rfl, by decide⟩
  exact (ReflTransGen.single hmid).tail happ

end Watcher

end ScriptRunner
