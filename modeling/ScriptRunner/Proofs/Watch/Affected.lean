import Mathlib.Data.List.Permutation
import ScriptRunner.Proofs.Order.Closure
import ScriptRunner.Proofs.Order.Retain
import ScriptRunner.Watch.Loop

/-!
# Affected members

A watcher that runs affected members again keeps of its plan what some changes reach: the changed members and whatever
depends on them (`Watcher.mem_planFor_iff`).  Reaching is said of names and chains of edges, so that cycles do no harm;
since every member is planned once, nothing else is said of the plan than that `Plan.retain` keeps its order.
-/

namespace ScriptRunner

open Relation

theorem Change.mem_members {changes : List Change} {x : String} :
    x ∈ Change.members changes ↔ ∃ c ∈ changes, c.member.name = x := by
  simp [Change.members, List.mem_eraseDups]

namespace Watcher

variable {members : List Member} {deps : Dependencies} {ordered : Bool} {plan : Plan} {settings : WatchSettings}
  {w : Watcher} {changes : List Change} {m : Member}

/-- Changes reach a member of the list: it has changed, or it depends on a changed one, directly or through other
members of the list. -/
def Reached (members : List Member) (deps : Dependencies) (changes : List Change) (m : Member) : Prop :=
  m ∈ members ∧ ∃ c ∈ changes, ReflTransGen (NameEdge (members.map (·.name)) deps) c.member.name m.name

/-- A changed member of the list is reached. -/
theorem reached_of_mem {c : Change} (hc : c ∈ changes) (hm : c.member ∈ members) :
    Reached members deps changes c.member :=
  ⟨hm, c, hc, .refl⟩

theorem planFor_of_affected (hw : ofSettings members deps plan settings = .ok w) (hr : settings.rerun = .affected)
    (changes : List Change) :
    w.planFor changes = plan.retain fun m =>
      ((Graph.ofMembers members deps).withDependents (Change.members changes)).contains m.name := by
  obtain ⟨options, -, rfl⟩ := ofSettings_eq_ok_iff.1 hw
  simp only [planFor, hr]

/-- What some changes run is what they reach, in every plan of the members. -/
theorem mem_planFor_iff_of_perm (hp : plan.order.Perm members)
    (hw : ofSettings members deps plan settings = .ok w) (hr : settings.rerun = .affected)
    (hm : ∀ c ∈ changes, c.member ∈ members) :
    m ∈ (w.planFor changes).order ↔ Reached members deps changes m := by
  rw [planFor_of_affected hw hr, Plan.order_retain, List.mem_filter, hp.mem_iff, List.contains_iff_mem,
    Graph.mem_withDependents]
  refine and_congr_right fun _ => ?_
  constructor
  · rintro ⟨r, hr, -, hreach⟩
    obtain ⟨c, hc, rfl⟩ := Change.mem_members.1 hr
    exact ⟨c, hc, hreach⟩
  · rintro ⟨c, hc, hreach⟩
    exact ⟨_, Change.mem_members.2 ⟨c, hc, rfl⟩, List.mem_map_of_mem (hm c hc), hreach⟩

/-- What some changes run is what they reach. -/
theorem mem_planFor_iff (hp : (Plan.ofMembers members deps ordered).value = .ok plan)
    (hw : ofSettings members deps plan settings = .ok w) (hr : settings.rerun = .affected)
    (hm : ∀ c ∈ changes, c.member ∈ members) :
    m ∈ (w.planFor changes).order ↔ Reached members deps changes m :=
  mem_planFor_iff_of_perm (Plan.order_perm_of_ok hp) hw hr hm

/-- A watcher that runs affected members again runs exactly the members that the changes reach, each once, in the order
and in the relative groups of the full plan, without empty groups.  Something is always run. -/
theorem planFor_affected (hn : (members.map (·.name)).Nodup)
    (hp : (Plan.ofMembers members deps ordered).value = .ok plan)
    (hw : ofSettings members deps plan settings = .ok w) (hr : settings.rerun = .affected)
    (hne : changes ≠ []) (hm : ∀ c ∈ changes, c.member ∈ members) :
    (w.planFor changes).groups ≠ [] ∧ (∀ g ∈ (w.planFor changes).groups, g ≠ []) ∧
      (∀ m, m ∈ (w.planFor changes).order ↔ Reached members deps changes m) ∧
      ((w.planFor changes).order.map (·.name)).Nodup ∧ (w.planFor changes).order.Sublist plan.order ∧
      ∀ a b k l k' l', InGroup (w.planFor changes).groups k a → InGroup (w.planFor changes).groups l b →
        InGroup plan.groups k' a → InGroup plan.groups l' b → (k < l ↔ k' < l') := by
  have hmem : ∀ m, m ∈ (w.planFor changes).order ↔ Reached members deps changes m :=
    fun _ => mem_planFor_iff hp hw hr hm
  have hnames : (plan.order.map (·.name)).Nodup := ((Plan.order_perm_of_ok hp).map _).nodup_iff.2 hn
  have hretain := planFor_of_affected hw hr changes
  have hsub : (w.planFor changes).order.Sublist plan.order := by
    rw [hretain, Plan.order_retain]
    exact List.filter_sublist
  refine ⟨fun hnil => ?_, ?_, hmem, hnames.sublist (hsub.map _), hsub, fun a b k l k' l' ha hb ha' hb' => ?_⟩
  · obtain ⟨c, hc⟩ := List.exists_mem_of_ne_nil _ hne
    have hrun := (hmem c.member).2 (reached_of_mem hc (hm c hc))
    simp [Plan.order, hnil] at hrun
  · rw [hretain]
    exact Plan.retain_ne_nil
  · rw [hretain] at ha hb
    exact Plan.inGroup_retain_lt_iff hnames.of_map ha hb ha' hb'

/-- A change in a cycle, among members that are run side by side. -/
theorem planFor_affected_cycle :
    let core : Member := ⟨"core", "core", "/ws/core", none, none⟩
    let utils : Member := ⟨"utils", "utils", "/ws/utils", none, none⟩
    let docs : Member := ⟨"docs", "docs", "/ws/docs", none, none⟩
    let app : Member := ⟨"app", "app", "/ws/app", none, none⟩
    let deps : Dependencies := SortedMap.ofList [("app", ["utils"]), ("core", ["utils"]), ("utils", ["core", "react"])]
    let w : Watcher := ⟨[app, docs, utils, core], Graph.ofMembers [app, docs, utils, core] deps,
      .flat [app, docs, utils, core], .affected, ⟨[], false⟩⟩
    let changes : List Change := [⟨["/", "ws", "core", "a"], .created, core⟩]
    ofSettings [app, docs, utils, core] deps (.flat [app, docs, utils, core]) { exclude := [], rerun := .affected } =
        .ok w ∧
      (w.planFor changes).groups = [[app, utils, core]] ∧
      ∀ m, m ∈ [app, utils, core] ↔ Reached [app, docs, utils, core] deps changes m := by
  intro core utils docs app deps w changes
  have hw : ofSettings [app, docs, utils, core] deps (.flat [app, docs, utils, core])
      { exclude := [], rerun := .affected } = .ok w := rfl
  have hplan : (w.planFor changes).groups = [[app, utils, core]] := by cbv
  have hp : (Plan.ofMembers [app, docs, utils, core] deps false).value = .ok (.flat [app, docs, utils, core]) := rfl
  refine ⟨hw, hplan, fun m => ?_⟩
  have hkept : (w.planFor changes).order = [app, utils, core] := by rw [Plan.order, hplan]; rfl
  rw [← hkept]
  exact (planFor_affected (by decide +kernel) hp hw rfl (List.cons_ne_nil _ _) (by decide +kernel)).2.2.1 m

end Watcher

end ScriptRunner
