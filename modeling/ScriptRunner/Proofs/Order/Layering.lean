import ScriptRunner.Proofs.Order.Cycles

/-!
# The groups of a plan

The plan of a member list without cycles has one group for each height: a member is in the group whose number is the
length of the longest chain of dependencies below it (`Graph.inGroup_layers_iff`).  So a plan does not depend on how the
layering found it, and with distinct names not on the order of the list either (`Plan.mem_group_iff`).
-/

namespace ScriptRunner

open Relation

/-- A position is in a group of this number. -/
def InGroup {α : Type*} (ls : List (List α)) (k : Nat) (i : α) : Prop := ∃ l, ls[k]? = some l ∧ i ∈ l

theorem InGroup.lt_length {α : Type*} {ls : List (List α)} {k : Nat} {i : α} (h : InGroup ls k i) : k < ls.length :=
  let ⟨_, hl, _⟩ := h
  (List.getElem?_eq_some_iff.1 hl).1

theorem mem_flatten_iff_exists_inGroup {α : Type*} {ls : List (List α)} {i : α} :
    i ∈ ls.flatten ↔ ∃ k, InGroup ls k i := by
  rw [List.mem_flatten]
  constructor
  · rintro ⟨l, hl, hi⟩
    obtain ⟨k, hk⟩ := List.mem_iff_getElem?.1 hl
    exact ⟨k, l, hk, hi⟩
  · rintro ⟨k, l, hk, hi⟩
    exact ⟨l, List.mem_of_getElem? hk, hi⟩

/-- The last of some groups that are not empty has a member. -/
theorem exists_inGroup_last {α : Type*} {ls : List (List α)} (hne : ∀ l ∈ ls, l ≠ []) (hpos : 0 < ls.length) :
    ∃ i, InGroup ls (ls.length - 1) i := by
  have hlt : ls.length - 1 < ls.length := by omega
  obtain ⟨i, hi⟩ := List.exists_mem_of_ne_nil _ (hne _ (List.getElem_mem hlt))
  exact ⟨i, _, List.getElem?_eq_getElem hlt, hi⟩

namespace Graph

variable {g : Graph}

/-- Without a cycle every position is taken once. -/
theorem perm_range_of_acyclic (hg : g.Proper) (h : ¬∃ i, TransGen g.Adj i i) :
    g.layering.layers.flatten.Perm (List.range g.size) := by
  have hs := stage_layering hg
  have hsub : g.layering.layers.flatten ⊆ List.range g.size := fun i hi =>
    List.mem_range.2 ((hs.mem_taken i).1 hi).1
  refine (hs.nodup_taken.subperm hsub).perm_of_length_le ?_
  rw [List.length_range]
  exact Nat.not_lt.1 (mt (taken_lt_iff hg).1 h)

/-- Without a cycle the layers are the heights. -/
theorem inGroup_layers_iff (hg : g.Proper) (h : ¬∃ i, TransGen g.Adj i i) {k i : Nat} :
    InGroup g.layering.layers k i ↔ i < g.size ∧ Height g.Adj k i := by
  have hs := stage_layering hg
  constructor
  · rintro ⟨l, hl, hi⟩
    exact ((hs.layers k l hl).mem i).1 hi
  · rintro ⟨hi, hk⟩
    have htaken := (perm_range_of_acyclic hg h).mem_iff.2 (List.mem_range.2 hi)
    have hlt : k < g.layering.layers.length := ((hs.mem_taken i).1 htaken).2 k hk.1
    have hl := List.getElem?_eq_getElem hlt
    exact ⟨_, hl, ((hs.layers k _ hl).mem i).2 ⟨hi, hk⟩⟩

/-- No numbering of the positions that every edge increases uses fewer numbers than there are layers. -/
theorem length_layers_le (hg : g.Proper) (h : ¬∃ i, TransGen g.Adj i i) {n : Nat} {f : Nat → Nat}
    (hn : ∀ i < g.size, f i < n) (hf : ∀ i j, g.Adj i j → f i < f j) : g.layering.layers.length ≤ n := by
  rcases Nat.eq_zero_or_pos g.layering.layers.length with h0 | hpos
  · omega
  · -- the last layer holds a position with a path of as many edges as there are layers before it
    obtain ⟨i, hi⟩ := exists_inGroup_last (layers_layering_ne_nil hg) hpos
    obtain ⟨hlt, hh⟩ := (inGroup_layers_iff hg h).1 hi
    have h₁ := hh.1.le_of_increasing hf
    have h₂ := hn i hlt
    omega

end Graph

namespace Plan

variable {members members' : List Member} {deps : Dependencies} {plan plan' : Plan}

/-! ### Groups of positions -/

/-- The groups of a plan as groups of positions, one for each height. -/
structure Canonical (members : List Member) (deps : Dependencies) (plan : Plan) (ls : List (List Nat)) : Prop where
  groups : plan.groups = ls.map (·.filterMap (members[·]?))
  order : plan.order = ls.flatten.filterMap (members[·]?)
  each_once : ls.flatten.Perm (List.range members.length)
  by_height : ∀ k i, InGroup ls k i ↔ i < members.length ∧ Height (Edge members deps) k i
  ne_nil : ∀ l ∈ ls, l ≠ []
  ascending : ∀ l ∈ ls, l.Pairwise (· < ·)
  /-- An edge leads to a later group. -/
  later : ∀ i j, Edge members deps i j → ∃ k m, k < m ∧ InGroup ls k i ∧ InGroup ls m j
  /-- No numbering of the positions that every edge increases uses fewer numbers. -/
  fewest : ∀ n (f : Nat → Nat), (∀ i < members.length, f i < n) →
    (∀ i j, Edge members deps i j → f i < f j) → plan.groups.length ≤ n
  /-- With distinct names any other order of the members gives the same groups, as sets. -/
  any_order : (members.map (·.name)).Nodup → ∀ members', members'.Perm members →
    ∃ plan', (ofMembers members' deps true).value = .ok plan' ∧ List.Forall₂ List.Perm plan'.groups plan.groups

/-- The groups of positions of a plan. -/
theorem layered_ok_iff : layered members deps = .ok plan ↔
    (¬∃ x, TransGen (NameEdge (members.map (·.name)) deps) x x) ∧
      plan = ⟨(Graph.ofMembers members deps).layering.layers.map (·.filterMap (members[·]?))⟩ := by
  by_cases h : ∃ x, TransGen (NameEdge (members.map (·.name)) deps) x x
  · rw [layered_of_cycle h]
    simp [h]
  · rw [layered_of_acyclic h]
    simp only [h, not_false_eq_true, true_and, Except.ok.injEq, eq_comm]

theorem inGroup_positions_iff (h : ¬∃ x, TransGen (NameEdge (members.map (·.name)) deps) x x) {k i : Nat} :
    InGroup (Graph.ofMembers members deps).layering.layers k i ↔
      i < members.length ∧ Height (Edge members deps) k i := by
  have hg := Graph.proper_ofMembers members deps
  rw [Graph.inGroup_layers_iff hg (mt exists_cycle_iff.1 h), Graph.adj_ofMembers, Graph.size_ofMembers]

private theorem filterMap_getElem?_range (members : List Member) :
    (List.range members.length).filterMap (members[·]?) = members := by
  induction members using List.reverseRecOn with
  | nil => rfl
  | append_singleton members m ih =>
    rw [List.length_append, List.length_singleton, List.range_succ, List.filterMap_append]
    conv => rhs; rw [← ih]
    congr 1
    · refine List.filterMap_congr fun i hi => ?_
      exact List.getElem?_append_left (List.mem_range.1 hi)
    · simp

/-- Every member is planned once. -/
theorem order_perm (h : layered members deps = .ok plan) : plan.order.Perm members := by
  obtain ⟨hac, rfl⟩ := layered_ok_iff.1 h
  have hperm := Graph.perm_range_of_acyclic (Graph.proper_ofMembers members deps) (mt exists_cycle_iff.1 hac)
  rw [Graph.size_ofMembers] at hperm
  rw [order, ← List.filterMap_flatten]
  exact (hperm.filterMap _).trans (List.Perm.of_eq (filterMap_getElem?_range members))

/-- With dependencies or without, every member is planned once. -/
theorem order_perm_of_ok {ordered : Bool} (h : (ofMembers members deps ordered).value = .ok plan) :
    plan.order.Perm members := by
  cases ordered with
  | true => exact order_perm (value_ofMembers_ordered ▸ h)
  | false =>
    obtain rfl : flat members = plan := Except.ok.inj h
    cases members <;> simp [flat, order]

/-! ### Groups of members -/

/-- The heights of a position and of its name are the same. -/
theorem height_edge_iff {k i : Nat} {x : String} (hx : StandsAt (members.map (·.name)) x i) :
    Height (Edge members deps) k i ↔ Height (NameEdge (members.map (·.name)) deps) k x := by
  refine height_congr (R := fun i x => StandsAt (members.map (·.name)) x i) ?_ ?_ hx
  · intro u i x hx e
    obtain ⟨y, hy⟩ := e.source
    exact ⟨y, hy, e.nameEdge hy hx⟩
  · intro y i x hx e
    obtain ⟨u, hu⟩ := exists_standsAt e.1
    exact ⟨u, hu, e.edge hu hx⟩

/-- Among distinct names, the group of a member is the height of its name. -/
theorem mem_group_iff (hn : (members.map (·.name)).Nodup) (h : layered members deps = .ok plan) {k : Nat}
    {m : Member} :
    InGroup plan.groups k m ↔ m ∈ members ∧ Height (NameEdge (members.map (·.name)) deps) k m.name := by
  obtain ⟨hac, rfl⟩ := layered_ok_iff.1 h
  have stands : ∀ {i : Nat} {m : Member}, members[i]? = some m → StandsAt (members.map (·.name)) m.name i :=
    fun hi => standsAt_of_nodup hn (by simp [hi])
  constructor
  · rintro ⟨_, hg, hm⟩
    obtain ⟨l, hl, rfl⟩ : ∃ l, (Graph.ofMembers members deps).layering.layers[k]? = some l ∧
        l.filterMap (members[·]?) = _ := by simpa using hg
    obtain ⟨i, hi, him⟩ := List.mem_filterMap.1 hm
    refine ⟨List.mem_of_getElem? him, ?_⟩
    rw [← height_edge_iff (stands him)]
    exact ((inGroup_positions_iff hac).1 ⟨l, hl, hi⟩).2
  · rintro ⟨hm, hk⟩
    obtain ⟨i, hi⟩ := List.mem_iff_getElem?.1 hm
    rw [← height_edge_iff (stands hi)] at hk
    obtain ⟨l, hl, hil⟩ := (inGroup_positions_iff hac).2 ⟨(List.getElem?_eq_some_iff.1 hi).1, hk⟩
    exact ⟨_, by simp [hl], List.mem_filterMap.2 ⟨i, hil, hi⟩⟩

theorem nodup_order (hn : (members.map (·.name)).Nodup) (h : layered members deps = .ok plan) : plan.order.Nodup :=
  (order_perm h).nodup_iff.2 hn.of_map

/-- A dependency is in an earlier group than its dependent. -/
theorem group_lt_of_transGen (hn : (members.map (·.name)).Nodup) (h : layered members deps = .ok plan) {k m : Nat}
    {a b : Member} (hb : InGroup plan.groups k b) (ha : InGroup plan.groups m a)
    (hab : TransGen (NameEdge (members.map (·.name)) deps) b.name a.name) : k < m :=
  ((mem_group_iff hn h).1 hb).2.lt_of_transGen ((mem_group_iff hn h).1 ha).2 hab

theorem groups_ne_nil (h : layered members deps = .ok plan) : ∀ g ∈ plan.groups, g ≠ [] := by
  obtain ⟨hac, rfl⟩ := layered_ok_iff.1 h
  intro g hg
  obtain ⟨l, hl, rfl⟩ := List.mem_map.1 hg
  have hne := Graph.layers_layering_ne_nil (Graph.proper_ofMembers members deps) l hl
  obtain ⟨i, hi⟩ := List.exists_mem_of_ne_nil l hne
  obtain ⟨k, hk⟩ := List.mem_iff_getElem?.1 hl
  have hlt := ((inGroup_positions_iff hac).1 ⟨l, hk, hi⟩).1
  exact List.ne_nil_of_mem (List.mem_filterMap.2 ⟨i, hi, List.getElem?_eq_getElem hlt⟩)

/-- Two plans with the same members in each group have as many groups. -/
private theorem length_le_of_inGroup {gs gs' : List (List Member)} (hne : ∀ g ∈ gs, g ≠ [])
    (h : ∀ k m, InGroup gs k m → InGroup gs' k m) : gs.length ≤ gs'.length := by
  rcases Nat.eq_zero_or_pos gs.length with h0 | hpos
  · omega
  · obtain ⟨m, hm⟩ := exists_inGroup_last hne hpos
    have := (h _ m hm).lt_length
    omega

private theorem nodup_group {k : Nat} {g : List Member} (h : plan.order.Nodup) (hg : plan.groups[k]? = some g) :
    g.Nodup :=
  (List.nodup_flatten.1 h).1 g (List.mem_of_getElem? hg)

/-- With distinct names the groups, as sets, do not depend on the order of the members. -/
theorem groups_perm (hn : (members.map (·.name)).Nodup) (hp : members'.Perm members)
    (h : layered members deps = .ok plan) (h' : layered members' deps = .ok plan') :
    List.Forall₂ List.Perm plan'.groups plan.groups := by
  have hn' : (members'.map (·.name)).Nodup := (hp.map _).nodup_iff.2 hn
  have same : ∀ k m, InGroup plan'.groups k m ↔ InGroup plan.groups k m := fun k m => by
    rw [mem_group_iff hn' h', mem_group_iff hn h, nameEdge_perm (hp.map _), hp.mem_iff]
  have hlen : plan'.groups.length = plan.groups.length :=
    Nat.le_antisymm (length_le_of_inGroup (groups_ne_nil h') fun k m => (same k m).1)
      (length_le_of_inGroup (groups_ne_nil h) fun k m => (same k m).2)
  refine List.forall₂_iff_get.2 ⟨hlen, fun k hk hk' => ?_⟩
  have e' := List.getElem?_eq_getElem hk
  have e := List.getElem?_eq_getElem hk'
  refine (List.perm_ext_iff_of_nodup (nodup_group (nodup_order hn' h') e') (nodup_group (nodup_order hn h) e)).2
    fun m => ?_
  simpa [InGroup, e, e'] using same k m

/-! ### The plan -/

/-- The groups of a plan are the heights of the positions. -/
theorem canonical_of_ok (h : (ofMembers members deps true).value = .ok plan) :
    ∃ ls, Canonical members deps plan ls := by
  rw [value_ofMembers_ordered] at h
  have hg := Graph.proper_ofMembers members deps
  obtain ⟨hac, hplan⟩ := layered_ok_iff.1 h
  have hac' := mt exists_cycle_iff.1 hac
  have hperm := Graph.perm_range_of_acyclic hg hac'
  rw [Graph.size_ofMembers] at hperm
  have hmem : ∀ k i, _ ↔ _ := fun k i => inGroup_positions_iff (k := k) (i := i) hac
  refine ⟨(Graph.ofMembers members deps).layering.layers, ?_, ?_, hperm, hmem, Graph.layers_layering_ne_nil hg,
    ?_, ?_, ?_, ?_⟩
  · rw [hplan]
  · rw [hplan, order, ← List.filterMap_flatten]
  · intro l hl
    obtain ⟨k, hk⟩ := List.mem_iff_getElem?.1 hl
    exact ((Graph.stage_layering hg).layers k l hk).ascending
  · intro i j e
    obtain ⟨hi, hj⟩ := e.lt
    obtain ⟨k, hk⟩ := mem_flatten_iff_exists_inGroup.1 (hperm.mem_iff.2 (List.mem_range.2 hi))
    obtain ⟨m, hm⟩ := mem_flatten_iff_exists_inGroup.1 (hperm.mem_iff.2 (List.mem_range.2 hj))
    exact ⟨k, m, ((hmem k i).1 hk).2.lt_of_edge ((hmem m j).1 hm).2 e, hk, hm⟩
  · intro n f hn hf
    rw [hplan, List.length_map]
    refine Graph.length_layers_le hg hac' (by simpa only [Graph.size_ofMembers] using hn) ?_
    rwa [Graph.adj_ofMembers]
  · intro hnd members' hp
    rw [← nameEdge_perm (hp.map _)] at hac
    refine ⟨_, ?_, groups_perm hnd hp h (layered_of_acyclic hac)⟩
    rw [value_ofMembers_ordered, layered_of_acyclic hac]

/-- A name that comes twice has its edges at its last position. -/
theorem canonical_of_ok_repeated_name :
    (ofMembers [⟨"web", "web", "/ws/web", none, none⟩, ⟨"core", "a", "/ws/a", none, none⟩,
        ⟨"base", "base", "/ws/base", none, none⟩, ⟨"core", "b", "/ws/b", none, none⟩]
        (SortedMap.ofList [("web", ["core", "react"]), ("core", ["base"]), ("cli", ["web"])]) true).value =
      .ok ⟨[[⟨"core", "a", "/ws/a", none, none⟩, ⟨"base", "base", "/ws/base", none, none⟩],
        [⟨"core", "b", "/ws/b", none, none⟩], [⟨"web", "web", "/ws/web", none, none⟩]]⟩ ∧
    ∃ ls, Canonical [⟨"web", "web", "/ws/web", none, none⟩, ⟨"core", "a", "/ws/a", none, none⟩,
        ⟨"base", "base", "/ws/base", none, none⟩, ⟨"core", "b", "/ws/b", none, none⟩]
        (SortedMap.ofList [("web", ["core", "react"]), ("core", ["base"]), ("cli", ["web"])])
        ⟨[[⟨"core", "a", "/ws/a", none, none⟩, ⟨"base", "base", "/ws/base", none, none⟩],
          [⟨"core", "b", "/ws/b", none, none⟩], [⟨"web", "web", "/ws/web", none, none⟩]]⟩ ls :=
  ⟨by decide +kernel, canonical_of_ok (by decide +kernel)⟩

end Plan

end ScriptRunner
