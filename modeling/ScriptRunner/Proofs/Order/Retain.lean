import Mathlib.Data.List.NodupEquivFin
import ScriptRunner.Proofs.Order.Layering

/-!
# Retained plans

What `Plan.retain` keeps of a plan: the members that satisfy a condition, in their order (`Plan.order_retain`), in
groups that are not empty.  The groups that are left are renumbered, and the renumbering is increasing
(`Plan.exists_renumbering`), so that two members that are kept stand in the same order as before
(`Plan.inGroup_retain_lt_iff`).  Several conditions one after another are one condition (`Plan.retainEach_eq`), and what
they leave of a plan is still layered, for the dependencies among all members of the plan (`Plan.retained_layered`).
-/

namespace ScriptRunner

/-- Among groups that share no member, a member is in one group only. -/
theorem InGroup.unique {α : Type*} {ls : List (List α)} (hn : ls.flatten.Nodup) {k m : Nat} {i : α}
    (hk : InGroup ls k i) (hm : InGroup ls m i) : k = m := by
  obtain ⟨l, hl, hi⟩ := hk
  obtain ⟨l', hl', hi'⟩ := hm
  have apart : ∀ {k m : Nat} {l l' : List α}, k < m → ls[k]? = some l → ls[m]? = some l' → i ∈ l → i ∉ l' := by
    intro k m l l' hlt hl hl' hi hi'
    obtain ⟨hk, rfl⟩ := List.getElem?_eq_some_iff.1 hl
    obtain ⟨hm, rfl⟩ := List.getElem?_eq_some_iff.1 hl'
    exact List.pairwise_iff_getElem.1 (List.nodup_flatten.1 hn).2 k m hk hm hlt hi hi'
  rcases Nat.lt_trichotomy k m with h | h | h
  · exact absurd hi' (apart h hl hl' hi)
  · exact h
  · exact absurd hi (apart h hl' hl hi')

namespace Plan

open Relation

variable {keep : Member → Bool} {p : Plan} {a b : Member} {k l k' l' : Nat}

@[simp] theorem order_retain : (p.retain keep).order = p.order.filter keep := by
  rw [order, retain, List.flatten_filter_not_isEmpty, order, List.filter_flatten]

theorem retain_ne_nil : ∀ g ∈ (p.retain keep).groups, g ≠ [] := by
  intro g hg
  simpa using (List.mem_filter.1 hg).2

/-- The groups that are left come from groups of the plan, in the same order. -/
theorem exists_renumbering (keep : Member → Bool) (p : Plan) :
    ∃ f : Nat → Nat, StrictMono f ∧ ∀ k m, InGroup (p.retain keep).groups k m → InGroup p.groups (f k) m := by
  have hsub : ((p.retain keep).groups).Sublist (p.groups.map (·.filter keep)) := List.filter_sublist
  obtain ⟨f, hf⟩ := List.sublist_iff_exists_orderEmbedding_getElem?_eq.1 hsub
  refine ⟨f, f.strictMono, fun k m ⟨g, hg, hm⟩ => ?_⟩
  rw [hf, List.getElem?_map] at hg
  obtain ⟨g', hg', rfl⟩ := Option.map_eq_some_iff.1 hg
  exact ⟨g', hg', (List.mem_filter.1 hm).1⟩

/-- Members that are kept stay in the order of their groups, those of one group in one group. -/
theorem inGroup_retain_lt_iff (hn : p.order.Nodup) (ha : InGroup (p.retain keep).groups k a)
    (hb : InGroup (p.retain keep).groups l b) (ha' : InGroup p.groups k' a) (hb' : InGroup p.groups l' b) :
    k < l ↔ k' < l' := by
  obtain ⟨f, hf, hgroups⟩ := exists_renumbering keep p
  rw [← (hgroups k a ha).unique hn ha', ← (hgroups l b hb).unique hn hb', hf.lt_iff_lt]

/-! ### Several conditions -/

/-- The plan of the members that are left after some conditions, each applied to what the ones before it leave. -/
def retainEach (keeps : List (Member → Bool)) (p : Plan) : Plan := keeps.foldl (fun q keep => q.retain keep) p

/-- A member satisfies all of some conditions. -/
def kept (keeps : List (Member → Bool)) (m : Member) : Bool := keeps.all fun keep => keep m

theorem retain_retain (keep keep' : Member → Bool) (p : Plan) :
    (p.retain keep).retain keep' = p.retain fun m => keep m && keep' m := by
  obtain ⟨gs⟩ := p
  simp only [retain, Plan.mk.injEq]
  induction gs with
  | nil => rfl
  | cons g gs ih =>
    have hboth : (g.filter keep).filter keep' = g.filter fun m => keep m && keep' m := by
      simp only [List.filter_filter, Bool.and_comm]
    rw [List.map_cons, List.map_cons, List.filter_cons, List.filter_cons, ← hboth]
    -- a group that the first condition empties is empty for both
    cases hg : (g.filter keep).isEmpty with
    | true =>
      rw [List.isEmpty_iff.1 hg]
      exact ih
    | false =>
      simp only [Bool.not_false, if_true, List.map_cons, List.filter_cons, ih]

/-- Without empty groups a plan is what every member of it leaves. -/
theorem retain_true (hne : ∀ g ∈ p.groups, g ≠ []) : (p.retain fun _ => true) = p := by
  obtain ⟨gs⟩ := p
  simp only [retain, List.filter_true, List.map_id', Plan.mk.injEq, List.filter_eq_self]
  intro g hg
  simpa using hne g hg

/-- Conditions one after another keep the members that satisfy all of them, in the same groups. -/
theorem retainEach_eq (hne : ∀ g ∈ p.groups, g ≠ []) (keeps : List (Member → Bool)) :
    p.retainEach keeps = p.retain (kept keeps) := by
  induction keeps using List.reverseRecOn with
  | nil => exact (retain_true hne).symm
  | append_singleton keeps keep ih =>
    have hkept : kept (keeps ++ [keep]) = fun m => kept keeps m && keep m := by
      funext m
      simp [kept]
    rw [retainEach, List.foldl_concat, ← retainEach, ih, retain_retain, hkept]

variable {members : List Member} {deps : Dependencies} {plan : Plan}

/-- Members that are kept are in groups in the order of their dependencies, those through dropped members included. -/
theorem group_retain_lt (hn : (members.map (·.name)).Nodup) (h : layered members deps = .ok plan)
    (hb : InGroup (plan.retain keep).groups k b) (ha : InGroup (plan.retain keep).groups l a)
    (hab : TransGen (NameEdge (members.map (·.name)) deps) b.name a.name) : k < l := by
  obtain ⟨f, -, hgroups⟩ := exists_renumbering keep plan
  have hlt := group_lt_of_transGen hn h (hgroups k b hb) (hgroups l a ha) hab
  exact (inGroup_retain_lt_iff (nodup_order hn h) hb ha (hgroups k b hb) (hgroups l a ha)).2 hlt

/-- What conditions leave of a plan with dependencies, one after another, is what all of them together leave: the
members that satisfy them in their order, in groups that are not empty, each member in one group and every dependency in
an earlier group than its dependent, also if members between the two have been dropped. -/
theorem retained_layered (hn : (members.map (·.name)).Nodup) (h : (ofMembers members deps true).value = .ok plan)
    (keeps : List (Member → Bool)) :
    plan.retainEach keeps = plan.retain (kept keeps) ∧
      (plan.retainEach keeps).order = plan.order.filter (kept keeps) ∧
      (∀ g ∈ (plan.retainEach keeps).groups, g ≠ []) ∧
      (plan.retainEach keeps).groups.flatten = (plan.retainEach keeps).order ∧
      (∀ m, m ∈ members → kept keeps m = true → ∃! k, InGroup (plan.retainEach keeps).groups k m) ∧
      ∀ a b k l, TransGen (NameEdge (members.map (·.name)) deps) b.name a.name →
        InGroup (plan.retainEach keeps).groups k b → InGroup (plan.retainEach keeps).groups l a → k < l := by
  have hplan : layered members deps = .ok plan := value_ofMembers_ordered ▸ h
  have heach := retainEach_eq (groups_ne_nil hplan) keeps
  rw [heach]
  refine ⟨rfl, order_retain, retain_ne_nil, rfl, fun m hm hkept => ?_, fun a b k l hab hb ha => ?_⟩
  · have horder : m ∈ (plan.retain (kept keeps)).order := by
      rw [order_retain, List.mem_filter, (order_perm hplan).mem_iff]
      exact ⟨hm, hkept⟩
    have hnodup : (plan.retain (kept keeps)).order.Nodup := by
      rw [order_retain]
      exact (nodup_order hn hplan).filter _
    obtain ⟨k, hk⟩ := mem_flatten_iff_exists_inGroup.1 horder
    exact ⟨k, hk, fun l hl => hl.unique hnodup hk⟩
  · exact group_retain_lt hn hplan hb ha hab

/-- A chain through a member that the first of two conditions drops. -/
theorem retained_layered_dropped :
    let core : Member := ⟨"core", "core", "/ws/core", none, none⟩
    let docs : Member := ⟨"docs", "docs", "/ws/docs", none, none⟩
    let lib : Member := ⟨"lib", "lib", "/ws/lib", none, none⟩
    let app : Member := ⟨"app", "app", "/ws/app", none, none⟩
    let deps : Dependencies := SortedMap.ofList [("app", ["lib"]), ("lib", ["core"])]
    let plan : Plan := ⟨[[docs, core], [lib], [app]]⟩
    let keeps : List (Member → Bool) := [fun m => m.name ≠ "lib", fun m => m.name ≠ "docs"]
    (([app, lib, docs, core] : List Member).map (·.name)).Nodup ∧
      (ofMembers [app, lib, docs, core] deps true).value = .ok plan ∧
      (plan.retainEach keeps).groups = [[core], [app]] ∧
      ∀ k l, InGroup (plan.retainEach keeps).groups k core → InGroup (plan.retainEach keeps).groups l app → k < l := by
  intro core docs lib app deps plan keeps
  have hn : (([app, lib, docs, core] : List Member).map (·.name)).Nodup := by decide +kernel
  have hplan : (ofMembers [app, lib, docs, core] deps true).value = .ok plan := by decide +kernel
  have hedge : ∀ x ∈ [app, lib, docs, core], ∀ y ∈ [app, lib, docs, core], ∀ ds, deps.get? y.name = some ds →
      x.name ∈ ds → NameEdge (([app, lib, docs, core] : List Member).map (·.name)) deps x.name y.name :=
    fun x hx y hy ds hds hxds => ⟨List.mem_map_of_mem hx, List.mem_map_of_mem hy, ds, hds, hxds⟩
  have hlib := hedge core (by decide +kernel) lib (by decide +kernel) ["core"] (by decide +kernel) (by decide +kernel)
  have happ := hedge lib (by decide +kernel) app (by decide +kernel) ["lib"] (by decide +kernel) (by decide +kernel)
  refine ⟨hn, hplan, rfl, fun k l => ?_⟩
  exact (retained_layered hn hplan keeps).2.2.2.2.2 app core k l (.tail (.single hlib) happ)

end Plan

end ScriptRunner
