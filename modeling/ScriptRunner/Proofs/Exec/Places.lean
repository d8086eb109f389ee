import Mathlib.Data.List.Perm.Basic
import Mathlib.Data.List.Sigma
import ScriptRunner.Proofs.Exec.History

/-!
# Places of a plan

`Plan.places` lists the places of a plan with their members.  A history is the histories of the places, shuffled
(`perm_actsAt`), so that what all moves have done is known from what was done for each place, whatever the schedule.
When no member is in two places, the acts of a place are those for its member (`actsOf_eq`).
-/

namespace ScriptRunner

namespace Plan

/-- The member at a place of the plan. -/
def At (plan : Plan) (g i : Nat) (m : Member) : Prop := ∃ group, plan.groups[g]? = some group ∧ group[i]? = some m

/-- The places of the plan with their members, in the order of the plan. -/
def places (plan : Plan) : List ((Nat × Nat) × Member) :=
  plan.groups.zipIdx.flatMap fun e => e.1.zipIdx.map fun f => ((e.2, f.2), f.1)

variable {plan : Plan} {g g' i i' : Nat} {m : Member}

theorem mem_places : ((g, i), m) ∈ plan.places ↔ plan.At g i m := by
  simp only [places, List.mem_flatMap, List.mem_map, Prod.mk.injEq]
  constructor
  · rintro ⟨⟨group, _⟩, hgroup, ⟨_, _⟩, hm, ⟨rfl, rfl⟩, rfl⟩
    exact ⟨group, List.mem_zipIdx_iff_getElem?.1 hgroup, List.mem_zipIdx_iff_getElem?.1 hm⟩
  · rintro ⟨group, hgroup, hm⟩
    exact ⟨(group, g), List.mem_zipIdx_iff_getElem?.2 hgroup, (m, i), List.mem_zipIdx_iff_getElem?.2 hm, ⟨rfl, rfl⟩, rfl⟩

theorem map_snd_places (plan : Plan) : plan.places.map (·.2) = plan.order := by
  have hgroup : ∀ e : List Member × Nat, (e.1.zipIdx.map fun f => ((e.2, f.2), f.1)).map (·.2) = e.1 := fun e => by
    rw [List.map_map]
    exact List.zipIdx_map_fst 0 e.1
  rw [places, List.map_flatMap, List.flatMap_congr fun e _ => hgroup e, List.flatMap_def, List.zipIdx_map_fst]
  rfl

theorem At.mem_order (h : plan.At g i m) : m ∈ plan.order := by
  obtain ⟨group, hg, hm⟩ := h
  exact List.mem_flatten.2 ⟨group, List.mem_of_getElem? hg, List.mem_of_getElem? hm⟩

theorem exists_at (h : m ∈ plan.order) : ∃ g i, plan.At g i m := by
  rw [← map_snd_places] at h
  obtain ⟨⟨⟨g, i⟩, m⟩, hmem, rfl⟩ := List.mem_map.1 h
  exact ⟨g, i, mem_places.1 hmem⟩

theorem At.member_unique {m' : Member} (h : plan.At g i m) (h' : plan.At g i m') : m = m' := by
  obtain ⟨group, hg, hm⟩ := h
  obtain ⟨group', hg', hm'⟩ := h'
  obtain rfl := Option.some.inj (hg.symm.trans hg')
  exact Option.some.inj (hm.symm.trans hm')

/-- When no member is in two places, a member has one place. -/
theorem At.unique (hn : plan.order.Nodup) (h : plan.At g i m) (h' : plan.At g' i' m) : g = g' ∧ i = i' := by
  rw [← map_snd_places] at hn
  have heq := List.inj_on_of_nodup_map hn (mem_places.2 h) (mem_places.2 h') rfl
  exact ⟨congrArg (·.1.1) heq, congrArg (·.1.2) heq⟩

theorem nodup_places (plan : Plan) : (plan.places.map (·.1)).Nodup := by
  rw [places, List.map_flatMap]
  refine List.nodup_flatMap.2 ⟨fun e _ => ?_, ?_⟩
  · rw [List.map_map]
    refine List.Nodup.of_map (·.2) ?_
    rw [List.map_map]
    exact List.nodup_zipIdx_map_snd e.1
  · refine (List.pairwise_map.1 (List.nodup_zipIdx_map_snd plan.groups)).imp fun {e e'} hne => ?_
    simp only [Function.onFun, List.Disjoint, List.map_map, List.mem_map]
    rintro _ ⟨f, -, rfl⟩ ⟨f', -, heq⟩
    exact hne (Prod.mk.inj heq).1.symm

end Plan

namespace Pass

variable {plan : Plan} {ds : List Deed} {g i : Nat} {m : Member}

/-- What a deed does for a member. -/
def Deed.act? : Deed → Option Act
  | did _ _ _ act => some act
  | _ => none

/-- What was done for a member. -/
def actsOf (ds : List Deed) (m : Member) : List Act :=
  ds.filterMap fun
    | .did _ _ m' act => if m' = m then some act else none
    | _ => none

private theorem flatMap_single {ι κ α : Type} [DecidableEq ι] {xs : List (ι × κ)} (hn : (xs.map (·.1)).Nodup) {x : ι}
    (hx : x ∈ xs.map (·.1)) (as : List α) : (xs.flatMap fun e => if x = e.1 then as else []) = as := by
  induction xs with
  | nil => simp at hx
  | cons e xs ih =>
    obtain ⟨he, hn⟩ := List.nodup_cons.1 hn
    rw [List.flatMap_cons]
    rcases List.mem_cons.1 hx with rfl | hx
    · have hrest : (xs.flatMap fun e' => if e.1 = e'.1 then as else []) = [] :=
        List.flatMap_eq_nil_iff.2 fun e' he' => if_neg fun heq => he (List.mem_map.2 ⟨e', he', heq.symm⟩)
      rw [hrest, if_pos rfl, List.append_nil]
    · have hne : x ≠ e.1 := by
        rintro rfl
        exact he hx
      rw [if_neg hne, List.nil_append, ih hn hx]

/-- A history is the histories of the places of the plan, shuffled. -/
theorem perm_actsAt {α : Type} (f : Act → Option α) (h : ∀ g i m act, .did g i m act ∈ ds → plan.At g i m) :
    (ds.filterMap fun d => d.act?.bind f).Perm
      (plan.places.flatMap fun x => (actsAt ds x.1.1 x.1.2).filterMap f) := by
  induction ds with
  | nil => simp [actsAt]
  | cons d ds ih =>
    have ih := ih fun g i m act hd => h g i m act (List.mem_cons_of_mem _ hd)
    cases d with
    | did g i m act =>
      -- the deed adds its act to the acts of one place, and the places are all different
      have hx : (g, i) ∈ plan.places.map (·.1) :=
        List.mem_map.2 ⟨_, Plan.mem_places.2 (h g i m act (by simp)), rfl⟩
      have hcons : ∀ x : (Nat × Nat) × Member, (actsAt (.did g i m act :: ds) x.1.1 x.1.2).filterMap f =
          (if (g, i) = x.1 then (f act).toList else []) ++ (actsAt ds x.1.1 x.1.2).filterMap f := fun x => by
        by_cases hgi : (g, i) = x.1
        · obtain ⟨⟨g', i'⟩, m'⟩ := x
          obtain ⟨rfl, rfl⟩ := Prod.mk.inj hgi
          cases hact : f act <;> simp [actsAt, Deed.actAt?, hact]
        · have hne : ¬(g = x.1.1 ∧ i = x.1.2) := fun h' => hgi (Prod.ext h'.1 h'.2)
          simp [actsAt, Deed.actAt?, hgi, hne]
      simp only [hcons]
      refine .trans ?_ (List.flatMap_append_perm _ _ _)
      rw [flatMap_single plan.nodup_places hx]
      cases hact : f act with
      | none => simpa [Deed.act?, hact] using ih
      | some a => simpa [Deed.act?, hact] using ih.cons a
    | interrupted | opened => exact ih

/-- When no member is in two places, the acts of a place are those for its member. -/
theorem actsOf_eq (hn : plan.order.Nodup) (h : ∀ g i m act, .did g i m act ∈ ds → plan.At g i m)
    (hm : plan.At g i m) : actsOf ds m = actsAt ds g i := by
  refine List.filterMap_congr fun d hd => ?_
  cases d with
  | did g' i' m' act =>
    have hat := h g' i' m' act hd
    by_cases hgi : g' = g ∧ i' = i
    · obtain ⟨rfl, rfl⟩ := hgi
      simp [Deed.actAt?, hat.member_unique hm]
    · have hne : m' ≠ m := by
        rintro rfl
        exact hgi (hat.unique hn hm)
      simp [Deed.actAt?, hne, hgi]
  | _ => rfl

end Pass

end ScriptRunner
