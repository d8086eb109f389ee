import Mathlib.Logic.Relation
import ScriptRunner.Proofs.Order.Edges

/-!
# The closure of a graph

`Graph.spread` takes positions from a queue and puts their dependents behind it.  What it has seen in the end holds
the queue, is closed under edges and holds nothing else than what can be reached (`spread_spec`); the invariant is that
the dependents of a position seen are seen or queued.  So `Graph.closure` is reachability (`mem_closure`), and
`Graph.onCycle` tells the positions on directed cycles (`onCycle_iff`).  The dependents of some names are the names at
the positions that can be reached from theirs (`mem_withDependents_iff_exists`); said of names alone, they are what
chains of edges between names lead to (`mem_withDependents`).
-/

namespace ScriptRunner.Graph

open Relation

variable {g : Graph}

/-- What is seen in the end, if some positions are seen and some are queued now. -/
structure Spread (g : Graph) (seen queue out : List Nat) : Prop where
  keeps : ∀ x ∈ seen, x ∈ out
  takes : ∀ x ∈ queue, x < g.size → x ∈ out
  closed : ∀ u ∈ out, ∀ v, g.Adj u v → v ∈ out
  sound : ∀ x ∈ out, x ∈ seen ∨ ∃ r ∈ queue, ReflTransGen g.Adj r x

theorem spread_spec (hg : g.Proper) {seen queue : List Nat}
    (h : ∀ u ∈ seen, ∀ v, g.Adj u v → v ∈ seen ∨ v ∈ queue) : Spread g seen queue (g.spread seen queue) := by
  fun_induction spread g seen queue with
  | case1 seen =>
    refine ⟨fun _ hx => hx, by simp, fun u hu v e => ?_, fun x hx => .inl hx⟩
    simpa using h u hu v e
  | case2 seen i queue hi ih =>
    -- a position that comes again, or none at all
    have key := ih fun u hu v e => by
      rcases h u hu v e with hv | hv
      · exact .inl hv
      · rcases List.mem_cons.1 hv with rfl | hv
        · exact .inl (hi.resolve_right (Nat.not_le.2 (hg.target_lt e)))
        · exact .inr hv
    refine ⟨key.keeps, fun x hx hlt => ?_, key.closed, fun x hx => ?_⟩
    · rcases List.mem_cons.1 hx with rfl | hx
      · exact key.keeps x (hi.resolve_right (Nat.not_le.2 hlt))
      · exact key.takes x hx hlt
    · exact (key.sound x hx).imp id fun ⟨r, hr, hreach⟩ => ⟨r, by simp [hr], hreach⟩
  | case3 seen i queue hi ih =>
    have key := ih fun u hu v e => by
      rw [List.mem_append, List.mem_filter]
      by_cases hv : v ∈ i :: seen
      · exact .inl hv
      · rcases List.mem_cons.1 hu with rfl | hu
        · exact .inr (.inr ⟨mem_dependents.2 e, by simpa using hv⟩)
        · rcases h u hu v e with hs | hq
          · exact .inl (by simp [hs])
          · rcases List.mem_cons.1 hq with rfl | hq
            · exact .inl (by simp)
            · exact .inr (.inl hq)
    refine ⟨fun x hx => key.keeps x (by simp [hx]), fun x hx hlt => ?_, key.closed, fun x hx => ?_⟩
    · rcases List.mem_cons.1 hx with rfl | hx
      · exact key.keeps x (by simp)
      · exact key.takes x (by simp [hx]) hlt
    · rcases key.sound x hx with hs | ⟨r, hr, hreach⟩
      · rcases List.mem_cons.1 hs with rfl | hs
        · exact .inr ⟨x, by simp, .refl⟩
        · exact .inl hs
      · rcases List.mem_append.1 hr with hr | hr
        · exact .inr ⟨r, by simp [hr], hreach⟩
        · exact .inr ⟨i, by simp, .head (mem_dependents.1 (List.mem_filter.1 hr).1) hreach⟩

/-- The closure of some positions is what can be reached from them. -/
theorem mem_closure (hg : g.Proper) {roots : List Nat} {i : Nat} :
    i ∈ g.closure roots ↔ i < g.size ∧ ∃ r ∈ roots, ReflTransGen g.Adj r i := by
  have key : Spread g [] roots (g.spread [] roots) := spread_spec hg (by simp)
  simp only [closure, List.mem_filter, List.mem_range, List.contains_iff_mem]
  refine and_congr_right fun hi => ?_
  constructor
  · intro h
    simpa using key.sound i h
  · rintro ⟨r, hr, hreach⟩
    have hlt : r < g.size := by
      rcases hreach.cases_head with rfl | ⟨_, e, _⟩
      · exact hi
      · exact hg.source_lt e
    induction hreach with
    | refl => exact key.takes r hr hlt
    | tail _ e ih => exact key.closed _ (ih (hg.source_lt e)) _ e

/-- A chain of edges ends at a position. -/
theorem Proper.lt_of_transGen (hg : g.Proper) {i j : Nat} (h : TransGen g.Adj i j) : i < g.size ∧ j < g.size := by
  obtain ⟨_, e, _⟩ := TransGen.head'_iff.1 h
  obtain ⟨_, _, e'⟩ := TransGen.tail'_iff.1 h
  exact ⟨hg.source_lt e, hg.target_lt e'⟩

theorem onCycle_iff (hg : g.Proper) {i : Nat} : g.onCycle i = true ↔ TransGen g.Adj i i := by
  simp only [onCycle, List.contains_iff_mem, mem_closure hg, mem_dependents]
  rw [← TransGen.head'_iff, and_iff_right_iff_imp]
  exact fun h => (hg.lt_of_transGen h).1

theorem nodup_closure (g : Graph) (roots : List Nat) : (g.closure roots).Nodup :=
  List.nodup_range.filter _

/-- Nothing more can be reached from what can be reached. -/
theorem closure_closure (hg : g.Proper) (roots : List Nat) : g.closure (g.closure roots) = g.closure roots := by
  refine List.filter_congr fun i hi => ?_
  rw [Bool.eq_iff_iff]
  have mem (rs : List Nat) : (g.spread [] rs).contains i = true ↔ i ∈ g.closure rs := by
    simp only [closure, List.mem_filter, hi, true_and]
  rw [mem, mem, mem_closure hg]
  constructor
  · rintro ⟨hlt, k, hk, hki⟩
    obtain ⟨-, r, hr, hrk⟩ := (mem_closure hg).1 hk
    exact (mem_closure hg).2 ⟨hlt, r, hr, hrk.trans hki⟩
  · exact fun h => ⟨((mem_closure hg).1 h).1, i, h, .refl⟩

/-! ### Dependents by name -/

section
variable {members : List Member} {deps : Dependencies} {roots : List String}

/-- The dependents of some names, and the names themselves, stand at what can be reached from their positions. -/
theorem mem_withDependents_iff_exists {x : String} :
    x ∈ (ofMembers members deps).withDependents roots ↔
      ∃ i, (members.map (·.name))[i]? = some x ∧ ∃ r ∈ roots, ∃ k, StandsAt (members.map (·.name)) r k ∧
        ReflTransGen (Edge members deps) k i := by
  have hg := proper_ofMembers members deps
  have hnames : (ofMembers members deps).names = members.map (·.name) := rfl
  rw [withDependents, hnames, List.mem_map]
  simp only [mem_closure hg, List.mem_filterMap, get?_positions, adj_ofMembers]
  constructor
  · rintro ⟨i, ⟨-, k, ⟨r, hr, hk⟩, hreach⟩, rfl⟩
    obtain ⟨y, hy⟩ := exists_standsAt_of_reflTransGen hk hreach
    exact ⟨i, by rw [nameAt_ofMembers hy]; exact hy.1, r, hr, k, hk, hreach⟩
  · rintro ⟨i, hi, r, hr, k, hk, hreach⟩
    have hlt : i < (members.map (·.name)).length := (List.getElem?_eq_some_iff.1 hi).1
    refine ⟨i, ⟨by simpa [size_ofMembers] using hlt, k, ⟨r, hr, hk⟩, hreach⟩, ?_⟩
    obtain ⟨y, hy⟩ := exists_standsAt_of_reflTransGen hk hreach
    rw [nameAt_ofMembers hy]
    exact Option.some.inj (hy.1.symm.trans hi)

/-- The dependents of some names, and the names themselves as far as they are in the list. -/
theorem mem_withDependents {x : String} :
    x ∈ (ofMembers members deps).withDependents roots ↔
      ∃ r ∈ roots, r ∈ members.map (·.name) ∧ ReflTransGen (NameEdge (members.map (·.name)) deps) r x := by
  rw [mem_withDependents_iff_exists]
  constructor
  · rintro ⟨i, hi, r, hr, k, hk, hreach⟩
    obtain ⟨y, hy⟩ := exists_standsAt_of_reflTransGen hk hreach
    obtain rfl : y = x := Option.some.inj (hy.1.symm.trans hi)
    exact ⟨r, hr, hk.mem, (reflTransGen_edge_iff hk hy).1 hreach⟩
  · rintro ⟨r, hr, hmem, hreach⟩
    have hx : x ∈ members.map (·.name) := by
      rcases hreach.cases_tail with rfl | ⟨_, -, e⟩
      · exact hmem
      · exact e.2.1
    obtain ⟨k, hk⟩ := exists_standsAt hmem
    obtain ⟨i, hi⟩ := exists_standsAt hx
    exact ⟨i, hi.1, r, hr, k, hk, (reflTransGen_edge_iff hk hi).2 hreach⟩

end

end ScriptRunner.Graph
