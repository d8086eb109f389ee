import Mathlib.Data.List.Induction
import Mathlib.Data.List.Nodup
import Mathlib.Logic.Relation
import ScriptRunner.Order.Graph

/-!
# The edges of a member list

`Edge members deps i j` says, without the graph, that there is an edge from position `i` to position `j`: each of the
two positions is the last one of its name, and the name at `j` depends on the name at `i`.  `Graph.adj_ofMembers`
says that these are the edges of the graph.  A position without a name of its own, because the name comes again, has
no edges.

`NameEdge names deps x y` is the same relation between names.  A chain of edges between positions and a chain between
names are the same thing (`transGen_edge_iff`), so that what holds of cycles can be said of names alone.
-/

namespace ScriptRunner

open Relation

/-- Position `i` is the last one of the name `x`. -/
def StandsAt (names : List String) (x : String) (i : Nat) : Prop :=
  names[i]? = some x ∧ ∀ j, i < j → names[j]? ≠ some x

/-- The name `y` depends on the name `x`. -/
def Depends (deps : Dependencies) (y x : String) : Prop := ∃ ds, deps.get? y = some ds ∧ x ∈ ds

/-- An edge from a dependency to its dependent, between the last positions of their names. -/
def Edge (members : List Member) (deps : Dependencies) (i j : Nat) : Prop :=
  ∃ x y, StandsAt (members.map (·.name)) x i ∧ StandsAt (members.map (·.name)) y j ∧ Depends deps y x

/-- An edge from a dependency to its dependent, between names of a list. -/
def NameEdge (names : List String) (deps : Dependencies) (x y : String) : Prop :=
  x ∈ names ∧ y ∈ names ∧ Depends deps y x

/-! ### Last positions -/

theorem StandsAt.lt {names : List String} {x : String} {i : Nat} (h : StandsAt names x i) : i < names.length :=
  (List.getElem?_eq_some_iff.1 h.1).1

theorem StandsAt.mem {names : List String} {x : String} {i : Nat} (h : StandsAt names x i) : x ∈ names :=
  List.mem_of_getElem? h.1

theorem StandsAt.unique {names : List String} {x : String} {i j : Nat} (hi : StandsAt names x i)
    (hj : StandsAt names x j) : i = j := by
  rcases Nat.lt_trichotomy i j with h | h | h
  · exact absurd hj.1 (hi.2 j h)
  · exact h
  · exact absurd hi.1 (hj.2 i h)

theorem StandsAt.name_unique {names : List String} {x y : String} {i : Nat} (hx : StandsAt names x i)
    (hy : StandsAt names y i) : x = y :=
  Option.some.inj (hx.1.symm.trans hy.1)

/-- Among distinct names every position stands for its name. -/
theorem standsAt_of_nodup {names : List String} (h : names.Nodup) {x : String} {i : Nat}
    (hx : names[i]? = some x) : StandsAt names x i := by
  refine ⟨hx, fun j hij hj => ?_⟩
  have : i = j := List.getElem?_inj (List.getElem?_eq_some_iff.1 hx).1 h |>.1 (hx.trans hj.symm)
  omega

theorem Graph.get?_positions {names : List String} {x : String} {i : Nat} :
    (positions names).get? x = some i ↔ StandsAt names x i := by
  unfold positions SortedMap.ofList
  induction names using List.reverseRecOn generalizing i with
  | nil => simp [SortedMap.get?_empty, StandsAt]
  | append_singleton names y ih =>
    have hy : (names ++ [y])[names.length]? = some y := by simp
    rw [List.zipIdx_append, List.foldl_append]
    simp only [List.zipIdx_cons, List.zipIdx_nil, List.foldl_cons, List.foldl_nil, Nat.zero_add,
      SortedMap.get?_insert]
    by_cases hyx : y = x
    · subst hyx
      simp only [↓reduceIte, Option.some.injEq]
      constructor
      · rintro rfl
        refine ⟨hy, fun j hj => ?_⟩
        rw [List.getElem?_eq_none (by simp; omega)]
        simp
      · intro h
        rcases Nat.lt_trichotomy names.length i with hi | hi | hi
        · exact absurd h.lt (by simp; omega)
        · exact hi
        · exact absurd hy (h.2 _ hi)
    · rw [if_neg hyx, ih]
      -- the new name is not `x`, so neither the position of `x` nor what follows it has changed
      have keep : ∀ j : Nat, (names ++ [y])[j]? = some x ↔ names[j]? = some x := by
        intro j
        rcases Nat.lt_trichotomy j names.length with hj | hj | hj
        · rw [List.getElem?_append_left hj]
        · subst hj
          simp [hyx]
        · rw [List.getElem?_eq_none (by simp; omega), List.getElem?_eq_none (by omega)]
      simp only [StandsAt, keep, ne_eq]

theorem exists_standsAt {names : List String} {x : String} (h : x ∈ names) : ∃ i, StandsAt names x i := by
  induction names using List.reverseRecOn with
  | nil => simp at h
  | append_singleton names y ih =>
    by_cases hyx : y = x
    · subst hyx
      refine ⟨names.length, by simp, fun j hj => ?_⟩
      rw [List.getElem?_eq_none (by simp; omega)]
      simp
    · obtain ⟨i, hi⟩ := ih (by simpa [Ne.symm hyx] using h)
      refine ⟨i, by rw [List.getElem?_append_left hi.lt]; exact hi.1, fun j hj hx => ?_⟩
      have hj' : j < names.length := by
        have := (List.getElem?_eq_some_iff.1 hx).1
        simp only [List.length_append, List.length_cons, List.length_nil] at this
        rcases Nat.lt_or_eq_of_le (Nat.le_of_lt_succ this) with h | rfl
        · exact h
        · simp [hyx] at hx
      exact hi.2 j hj (by rwa [List.getElem?_append_left hj'] at hx)

/-! ### Positions and names -/

section
variable {members : List Member} {deps : Dependencies}

theorem Edge.nameEdge {i j : Nat} {x y : String} (h : Edge members deps i j)
    (hx : StandsAt (members.map (·.name)) x i) (hy : StandsAt (members.map (·.name)) y j) :
    NameEdge (members.map (·.name)) deps x y := by
  obtain ⟨x', y', hx', hy', hd⟩ := h
  rw [hx.name_unique hx', hy.name_unique hy']
  exact ⟨hx'.mem, hy'.mem, hd⟩

theorem NameEdge.edge {i j : Nat} {x y : String} (h : NameEdge (members.map (·.name)) deps x y)
    (hx : StandsAt (members.map (·.name)) x i) (hy : StandsAt (members.map (·.name)) y j) :
    Edge members deps i j :=
  ⟨x, y, hx, hy, h.2.2⟩

/-- An edge starts at the position of a name. -/
theorem Edge.source {i j : Nat} (h : Edge members deps i j) : ∃ x, StandsAt (members.map (·.name)) x i :=
  let ⟨x, _, hx, _⟩ := h
  ⟨x, hx⟩

theorem Edge.lt {i j : Nat} (h : Edge members deps i j) : i < members.length ∧ j < members.length := by
  obtain ⟨x, y, hx, hy, -⟩ := h
  exact ⟨by simpa using hx.lt, by simpa using hy.lt⟩

/-- The edges between names do not depend on the order of the names. -/
theorem nameEdge_perm {names names' : List String} (hp : names'.Perm names) :
    NameEdge names' deps = NameEdge names deps := by
  funext x y
  simp only [NameEdge, hp.mem_iff]

/-- A chain of edges between positions is a chain between their names. -/
theorem transGen_edge_iff {i j : Nat} {x y : String} (hx : StandsAt (members.map (·.name)) x i)
    (hy : StandsAt (members.map (·.name)) y j) :
    TransGen (Edge members deps) i j ↔ TransGen (NameEdge (members.map (·.name)) deps) x y := by
  constructor
  · intro h
    induction h generalizing y with
    | single h => exact .single (h.nameEdge hx hy)
    | tail _ h ih =>
      obtain ⟨z, hz⟩ := h.source
      exact (ih hz).tail (h.nameEdge hz hy)
  · intro h
    induction h generalizing j with
    | single h => exact .single (h.edge hx hy)
    | tail _ h ih =>
      obtain ⟨k, hk⟩ := exists_standsAt h.1
      exact (ih hk).tail (h.edge hk hy)

theorem reflTransGen_edge_iff {i j : Nat} {x y : String} (hx : StandsAt (members.map (·.name)) x i)
    (hy : StandsAt (members.map (·.name)) y j) :
    ReflTransGen (Edge members deps) i j ↔ ReflTransGen (NameEdge (members.map (·.name)) deps) x y := by
  rw [reflTransGen_iff_eq_or_transGen, reflTransGen_iff_eq_or_transGen, transGen_edge_iff hx hy]
  refine or_congr_left ⟨?_, ?_⟩
  · rintro rfl
    exact hy.name_unique hx
  · rintro rfl
    exact hy.unique hx

/-- A chain of edges that starts at the last position of a name ends at the last position of a name. -/
theorem exists_standsAt_of_reflTransGen {i j : Nat} {x : String} (hx : StandsAt (members.map (·.name)) x i)
    (h : ReflTransGen (Edge members deps) i j) : ∃ y, StandsAt (members.map (·.name)) y j := by
  rcases h.cases_tail with rfl | ⟨_, -, _, y, -, hy, -⟩
  · exact ⟨x, hx⟩
  · exact ⟨y, hy⟩

end

/-! ### The edges of a graph -/

namespace Graph

/-- There is an edge from one position to the other. -/
def Adj (g : Graph) (i j : Nat) : Prop := (i, j) ∈ g.edges

theorem mem_dependents {g : Graph} {i d : Nat} : d ∈ g.dependents i ↔ g.Adj i d := by
  simp [dependents, Adj]

/-- A graph that a member list can give: no edge comes twice, and every edge joins two positions. -/
structure Proper (g : Graph) : Prop where
  nodup : g.edges.Nodup
  source_lt : ∀ {i j}, g.Adj i j → i < g.size
  target_lt : ∀ {i j}, g.Adj i j → j < g.size

theorem size_ofMembers (members : List Member) (deps : Dependencies) :
    (ofMembers members deps).size = members.length := by
  simp [ofMembers, size]

theorem nameAt_ofMembers {members : List Member} {deps : Dependencies} {x : String} {i : Nat}
    (h : StandsAt (members.map (·.name)) x i) : (ofMembers members deps).nameAt i = x := by
  simp only [ofMembers, nameAt, List.getD_eq_getElem?_getD, h.1, Option.getD_some]

theorem mem_edgesOf {index : SortedMap String Nat} {y : String} {ds : List String} {i j : Nat} :
    (i, j) ∈ edgesOf index y ds ↔ ∃ x ∈ ds, index.get? x = some i ∧ index.get? y = some j := by
  unfold edgesOf
  split
  · rename_i h
    simp [h]
  · rename_i t h
    simp only [List.mem_map, List.mem_filterMap, Prod.mk.injEq, h, Option.some.injEq]
    constructor
    · rintro ⟨_, ⟨x, hx, hi⟩, rfl, ht⟩
      exact ⟨x, hx, hi, ht⟩
    · rintro ⟨x, hx, hi, ht⟩
      exact ⟨i, ⟨x, hx, hi⟩, rfl, ht⟩

/-- The edges of the graph of a member list are the edges of the list. -/
theorem adj_ofMembers (members : List Member) (deps : Dependencies) :
    (ofMembers members deps).Adj = Edge members deps := by
  funext i j
  refine propext ?_
  simp only [Adj, ofMembers, List.mem_eraseDups, List.mem_flatMap, mem_edgesOf, get?_positions, Prod.exists]
  constructor
  · rintro ⟨y, ds, hd, x, hx, hi, hj⟩
    exact ⟨x, y, hi, hj, ds, SortedMap.get?_eq_some_iff.2 hd, hx⟩
  · rintro ⟨x, y, hi, hj, ds, hd, hx⟩
    exact ⟨y, ds, SortedMap.get?_eq_some_iff.1 hd, x, hx, hi, hj⟩

private theorem nodup_eraseDups {α : Type*} [BEq α] [LawfulBEq α] (l : List α) : l.eraseDups.Nodup := by
  induction hn : l.length using Nat.strongRecOn generalizing l with
  | ind n ih =>
    subst hn
    cases l with
    | nil => simp
    | cons a l =>
      rw [List.eraseDups_cons, List.nodup_cons]
      refine ⟨by simp, ih _ ?_ _ rfl⟩
      exact Nat.lt_succ_of_le (List.length_filter_le _ _)

theorem proper_ofMembers (members : List Member) (deps : Dependencies) : (ofMembers members deps).Proper := by
  refine ⟨nodup_eraseDups _, fun {i j} h => ?_, fun {i j} h => ?_⟩ <;>
    rw [adj_ofMembers] at h <;>
    rw [size_ofMembers]
  · exact h.lt.1
  · exact h.lt.2

end Graph

end ScriptRunner
