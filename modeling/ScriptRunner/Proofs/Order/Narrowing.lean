import Mathlib.Data.List.Permutation
import Mathlib.Order.WellFounded
import ScriptRunner.Proofs.Order.Retain

/-!
# Plans of fewer members

Leaving members out takes edges away and adds none (`NameEdge.mono`), so a chain or a cycle among the members that are
left is one among all members too.  Hence there is a plan of fewer members whenever there is a plan of all, and no
member comes later in it: not later than in the plan of all, and not later than in what `Plan.retain` leaves of that
plan, where a member still waits for what it depends on through a member that was left out
(`Plan.monotone_of_sublist`).

The group of a member is the length of a path to it, and every edge leads to a later group of the retained plan.  A
member left out has no group there, so the groups number some of the nodes only; `PathTo.le_of_rank` takes such a
numbering.
-/

namespace ScriptRunner

open Relation

/-- Numbers of nodes bound the paths to them, if every edge to a numbered node comes from one with a smaller number. -/
theorem PathTo.le_of_rank {α : Type*} {E : α → α → Prop} {R : α → Nat → Prop}
    (hR : ∀ i j m, E i j → R j m → ∃ l < m, R i l) {k m : Nat} {i : α} (h : PathTo E k i) (hm : R i m) : k ≤ m := by
  induction h generalizing m with
  | start => exact Nat.zero_le m
  | step _ e ih =>
    obtain ⟨l, hlm, hl⟩ := hR _ _ _ e hm
    have hkl := ih hl
    omega

/-- Fewer names have fewer edges. -/
theorem NameEdge.mono {names names' : List String} {deps : Dependencies} {x y : String} (hs : names' ⊆ names)
    (h : NameEdge names' deps x y) : NameEdge names deps x y :=
  ⟨hs h.1, hs h.2.1, h.2.2⟩

theorem transGen_nameEdge_mono {names names' : List String} {deps : Dependencies} {x y : String}
    (hs : names' ⊆ names) (h : TransGen (NameEdge names' deps) x y) : TransGen (NameEdge names deps) x y :=
  TransGen.mono (fun _ _ e => NameEdge.mono hs e) _ _ h

namespace Plan

/-! ### The group of a member -/

/-- The member is in the group of this number, and in no other. -/
def GroupIs (p : Plan) (m : Member) (k : Nat) : Prop := ∀ l, InGroup p.groups l m ↔ l = k

variable {keep : Member → Bool} {p : Plan} {m : Member} {k l r : Nat}

theorem GroupIs.inGroup (h : p.GroupIs m k) : InGroup p.groups k m := (h k).2 rfl

/-- A member that is planned once has a group. -/
theorem exists_groupIs (hn : p.order.Nodup) (hm : m ∈ p.order) : ∃ k, p.GroupIs m k := by
  obtain ⟨k, hk⟩ := mem_flatten_iff_exists_inGroup.1 hm
  refine ⟨k, fun l => ⟨fun hl => hl.unique hn hk, ?_⟩⟩
  rintro rfl
  exact hk

/-- Retaining moves no member to a later group. -/
theorem group_retain_le (hr : (p.retain keep).GroupIs m r) (hl : p.GroupIs m l) : r ≤ l := by
  obtain ⟨f, hf, hgroups⟩ := exists_renumbering keep p
  have hfr : f r = l := (hl (f r)).1 (hgroups r m hr.inGroup)
  calc r ≤ f r := StrictMono.le_apply hf
    _ = l := hfr

/-! ### Fewer members -/

variable {members narrowed : List Member} {deps : Dependencies} {plan plan' : Plan}

theorem names_subset_of_sublist (hs : narrowed.Sublist members) :
    narrowed.map (·.name) ⊆ members.map (·.name) :=
  (hs.map _).subset

/-- If all members have a plan, so have fewer. -/
theorem exists_layered_of_sublist (hs : narrowed.Sublist members) (h : layered members deps = .ok plan) :
    ∃ plan', layered narrowed deps = .ok plan' := by
  obtain ⟨hac, -⟩ := layered_ok_iff.1 h
  refine ⟨_, layered_of_acyclic ?_⟩
  rintro ⟨x, hx⟩
  exact hac ⟨x, transGen_nameEdge_mono (names_subset_of_sublist hs) hx⟩

/-- The members that are left of a plan have groups in it. -/
theorem exists_groupIs_retain (hn : (members.map (·.name)).Nodup) (hs : narrowed.Sublist members)
    (h : layered members deps = .ok plan) (hm : m ∈ narrowed) : ∃ r, (plan.retain (· ∈ narrowed)).GroupIs m r := by
  have hnodup : (plan.retain (· ∈ narrowed)).order.Nodup := by
    rw [order_retain]
    exact (nodup_order hn h).filter _
  refine exists_groupIs hnodup ?_
  rw [order_retain, List.mem_filter, (order_perm h).mem_iff]
  exact ⟨hs.subset hm, by simpa using hm⟩

/-- In a plan of fewer members no member comes later than in what is left of the plan of all. -/
theorem group_le_group_retain (hn : (members.map (·.name)).Nodup) (hs : narrowed.Sublist members)
    (h : layered members deps = .ok plan) (h' : layered narrowed deps = .ok plan') (hk : plan'.GroupIs m k)
    (hr : (plan.retain (· ∈ narrowed)).GroupIs m r) : k ≤ r := by
  have hn' : (narrowed.map (·.name)).Nodup := hn.sublist (hs.map _)
  obtain ⟨hm, hpath, -⟩ := (mem_group_iff hn' h').1 hk.inGroup
  refine hpath.le_of_rank (R := fun x r => ∃ b ∈ narrowed, b.name = x ∧ (plan.retain (· ∈ narrowed)).GroupIs b r)
    ?_ ⟨m, hm, rfl, hr⟩
  rintro _ _ j e ⟨b, hb, rfl, hbj⟩
  obtain ⟨a, ha, rfl⟩ := List.mem_map.1 e.1
  obtain ⟨i, hai⟩ := exists_groupIs_retain hn hs h ha
  have hedge : TransGen (NameEdge (members.map (·.name)) deps) a.name b.name :=
    .single (e.mono (names_subset_of_sublist hs))
  exact ⟨i, group_retain_lt hn h hai.inGroup hbj.inGroup hedge, a, ha, rfl, hai⟩

/-- Fewer members have a plan if all have one, with no member in a later group than in the plan of all, or in what is
left of that plan.  If fewer members have cycles, all members have, and the same names are on them. -/
theorem monotone_of_sublist (hn : (members.map (·.name)).Nodup) (hs : narrowed.Sublist members) :
    (∀ plan, (ofMembers members deps true).value = .ok plan →
        ∃ plan', (ofMembers narrowed deps true).value = .ok plan' ∧
          ∀ m ∈ narrowed, ∃ k l r, plan'.GroupIs m k ∧ plan.GroupIs m l ∧
            (plan.retain (· ∈ narrowed)).GroupIs m r ∧ k ≤ r ∧ r ≤ l) ∧
      ∀ names', (ofMembers narrowed deps true).value = .error names' →
        ∃ names, (ofMembers members deps true).value = .error names ∧ names' ⊆ names := by
  simp only [value_ofMembers_ordered]
  constructor
  · intro plan h
    obtain ⟨plan', h'⟩ := exists_layered_of_sublist hs h
    refine ⟨plan', h', fun m hm => ?_⟩
    have hn' : (narrowed.map (·.name)).Nodup := hn.sublist (hs.map _)
    obtain ⟨k, hk⟩ := exists_groupIs (nodup_order hn' h') ((order_perm h').mem_iff.2 hm)
    obtain ⟨l, hl⟩ := exists_groupIs (nodup_order hn h) ((order_perm h).mem_iff.2 (hs.subset hm))
    obtain ⟨r, hr⟩ := exists_groupIs_retain hn hs h hm
    exact ⟨k, l, r, hk, hl, hr, group_le_group_retain hn hs h h' hk hr, group_retain_le hr hl⟩
  · intro names' h'
    have hcycle : ∃ x, TransGen (NameEdge (narrowed.map (·.name)) deps) x x := by
      by_contra hac
      rw [layered_of_acyclic hac] at h'
      exact nomatch h'
    have hmono : ∀ x, TransGen (NameEdge (narrowed.map (·.name)) deps) x x →
        TransGen (NameEdge (members.map (·.name)) deps) x x :=
      fun x hx => transGen_nameEdge_mono (names_subset_of_sublist hs) hx
    obtain rfl : (Graph.ofMembers narrowed deps).cycleNames = names' :=
      Except.error.inj ((layered_of_cycle hcycle).symm.trans h')
    refine ⟨_, layered_of_cycle (hcycle.imp hmono), fun x hx => ?_⟩
    rw [mem_cycleNames_ofMembers] at hx ⊢
    exact hmono x hx

/-- A member that is left out between two others, and a cycle that is left out beside another. -/
theorem monotone_of_sublist_left_out :
    let core : Member := ⟨"core", "core", "/ws/core", none, none⟩
    let docs : Member := ⟨"docs", "docs", "/ws/docs", none, none⟩
    let lib : Member := ⟨"lib", "lib", "/ws/lib", none, none⟩
    let app : Member := ⟨"app", "app", "/ws/app", none, none⟩
    let members : List Member := [app, lib, docs, core]
    let chain : Dependencies := SortedMap.ofList [("app", ["lib"]), ("lib", ["core"])]
    let loops : Dependencies := SortedMap.ofList [("app", ["core"]), ("core", ["app"]), ("docs", ["docs"])]
    (members.map (·.name)).Nodup ∧ [app, core].Sublist members ∧
      (ofMembers members chain true).value = .ok ⟨[[docs, core], [lib], [app]]⟩ ∧
      (ofMembers [app, core] chain true).value = .ok ⟨[[app, core]]⟩ ∧
      (∃ k l r, (⟨[[app, core]]⟩ : Plan).GroupIs app k ∧ (⟨[[docs, core], [lib], [app]]⟩ : Plan).GroupIs app l ∧
        (⟨[[core], [app]]⟩ : Plan).GroupIs app r ∧ k ≤ r ∧ r ≤ l) ∧
      (ofMembers [app, core] loops true).value = .error ["app", "core"] ∧
      ∃ names, (ofMembers members loops true).value = .error names ∧ ["app", "core"] ⊆ names := by
  intro core docs lib app members chain loops
  have hn : (members.map (·.name)).Nodup := by decide +kernel
  have hs : [app, core].Sublist members := by decide +kernel
  have hall : (ofMembers members chain true).value = .ok ⟨[[docs, core], [lib], [app]]⟩ := by decide +kernel
  have hfew : (ofMembers [app, core] chain true).value = .ok ⟨[[app, core]]⟩ := by decide +kernel
  have hloops : (ofMembers [app, core] loops true).value = .error ["app", "core"] := by
    have hgraph : Graph.ofMembers [app, core] loops = ⟨["app", "core"], [(1, 0), (0, 1)]⟩ := by decide +kernel
    have hlayers : (⟨["app", "core"], [(1, 0), (0, 1)]⟩ : Graph).layers = .error ["app", "core"] := by cbv
    rw [value_ofMembers_ordered, layered, hgraph, hlayers]
    rfl
  obtain ⟨plan', hplan', hgroups⟩ := (monotone_of_sublist hn hs).1 _ hall
  obtain rfl : plan' = ⟨[[app, core]]⟩ := Except.ok.inj (hplan'.symm.trans hfew)
  exact ⟨hn, hs, hall, hfew, hgroups app (by simp), hloops, (monotone_of_sublist hn hs).2 _ hloops⟩

end Plan

end ScriptRunner
