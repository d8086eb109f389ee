import Mathlib.Logic.Function.Iterate
import ScriptRunner.Proofs.Order.Closure

/-!
# Following dependents turn by turn

The loop behind `Graph.withDependents` holds the positions seen and a queue in which a position may stand many times
(`Sweep`).  A turn takes the first position of the queue; if it has not been seen, the dependents that have not been
seen join the queue.  The queue may grow for as long as there are new positions, but an edge puts its end into the
queue at most once, in the turn that first sees its start.  So the length of the queue and the number of edges whose
start has not been seen are together at most one less after each turn (`Sweep.weight_turn_lt`), and the queue is empty
after as many turns as there are roots and edges (`Sweep.run_eq`).

What is left then is a closure: it holds its roots, grows with them, is its own closure and takes unions to unions
(`withDependents_closure`).
-/

namespace ScriptRunner.Graph

open Relation

/-- The state of the loop between two turns. -/
structure Sweep where
  seen : List Nat
  /-- The positions to be looked at, seen ones among them. -/
  queue : List Nat
  deriving DecidableEq, Repr

namespace Sweep

/-- Nothing is seen, and the positions of the names that are in the graph are queued. -/
def start (g : Graph) (roots : List String) : Sweep := ⟨[], roots.filterMap (positions g.names).get?⟩

/-- Takes the first position of the queue. -/
def turn (g : Graph) (s : Sweep) : Sweep :=
  match s.queue with
  | [] => s
  | i :: queue =>
    if i ∈ s.seen then ⟨s.seen, queue⟩
    else ⟨i :: s.seen, queue ++ (g.dependents i).filter fun d => !(i :: s.seen).contains d⟩

/-- The names at the positions seen, in the order of the graph. -/
def names (g : Graph) (s : Sweep) : List String := ((List.range g.size).filter s.seen.contains).map g.nameAt

/-- What the queue can still give: its positions, and one for each edge whose start has not been seen. -/
def weight (g : Graph) (s : Sweep) : Nat := s.queue.length + g.edges.countP fun e => e.1 ∉ s.seen

variable {g : Graph} {s : Sweep}

theorem turn_of_empty (h : s.queue = []) : s.turn g = s := by
  simp only [turn, h]

/-- The edges from unseen positions are those from a position seen next and those that remain. -/
private theorem countP_unseen {i : Nat} {seen : List Nat} (hi : i ∉ seen) :
    (g.edges.countP fun e => e.1 ∉ seen) =
      (g.dependents i).length + g.edges.countP fun e => e.1 ∉ i :: seen := by
  rw [dependents, List.length_map, ← List.countP_eq_length_filter,
    List.countP_eq_countP_filter_add g.edges _ fun e => e.1 = i, List.countP_filter, List.countP_filter]
  congr 1
  · refine List.countP_congr fun e _ => ?_
    simp only [Bool.and_eq_true, decide_eq_true_eq]
    exact ⟨fun h => h.2, fun h => ⟨h ▸ hi, h⟩⟩
  · refine List.countP_congr fun e _ => ?_
    simp only [Bool.and_eq_true, Bool.not_eq_true', decide_eq_true_eq, decide_eq_false_iff_not, List.mem_cons, not_or]
    exact and_comm

theorem weight_turn_lt (h : s.queue ≠ []) : (s.turn g).weight g < s.weight g := by
  obtain ⟨seen, _ | ⟨i, queue⟩⟩ := s
  · exact absurd rfl h
  · by_cases hi : i ∈ seen
    · simp only [turn, weight, hi, ↓reduceIte, List.length_cons]
      omega
    · have joined := List.length_filter_le (fun d => !(i :: seen).contains d) (g.dependents i)
      have edges := countP_unseen (g := g) hi
      simp only [turn, weight, hi, ↓reduceIte, List.length_cons, List.length_append]
      omega

/-- The queue is empty after as many turns as the weight says. -/
theorem queue_iterate_eq_nil {n : Nat} (h : s.weight g ≤ n) : ((turn g)^[n] s).queue = [] := by
  induction n generalizing s with
  | zero => exact List.length_eq_zero_iff.1 (Nat.eq_zero_of_add_eq_zero (Nat.le_zero.1 h)).1
  | succ n ih =>
    by_cases hq : s.queue = []
    · rw [Function.iterate_fixed (turn_of_empty hq)]
      exact hq
    · rw [Function.iterate_succ_apply]
      exact ih (Nat.le_of_lt_succ (Nat.lt_of_lt_of_le (weight_turn_lt hq) h))

/-- The queue holds positions of the graph. -/
def InRange (g : Graph) (s : Sweep) : Prop := ∀ i ∈ s.queue, i < g.size

theorem inRange_start (members : List Member) (deps : Dependencies) (roots : List String) :
    (start (ofMembers members deps) roots).InRange (ofMembers members deps) := by
  intro i hi
  obtain ⟨r, -, hr⟩ := List.mem_filterMap.1 hi
  exact (get?_positions.1 hr).lt

theorem InRange.turn (hg : g.Proper) (h : s.InRange g) : (s.turn g).InRange g := by
  obtain ⟨seen, _ | ⟨i, queue⟩⟩ := s
  · exact h
  · intro j hj
    by_cases hi : i ∈ seen
    · simp only [Sweep.turn, hi, ↓reduceIte] at hj
      exact h j (.tail _ hj)
    · simp only [Sweep.turn, hi, ↓reduceIte, List.mem_append, List.mem_filter] at hj
      rcases hj with hj | ⟨hj, -⟩
      · exact h j (.tail _ hj)
      · exact hg.target_lt (mem_dependents.1 hj)

theorem InRange.iterate (hg : g.Proper) (h : s.InRange g) (n : Nat) : ((Sweep.turn g)^[n] s).InRange g := by
  induction n with
  | zero => exact h
  | succ n ih =>
    rw [Function.iterate_succ_apply']
    exact ih.turn hg

/-- A turn does not change what is seen in the end. -/
theorem spread_turn (h : s.InRange g) : g.spread (s.turn g).seen (s.turn g).queue = g.spread s.seen s.queue := by
  obtain ⟨seen, _ | ⟨i, queue⟩⟩ := s
  · rfl
  · have hlt : i < g.size := h i (.head _)
    by_cases hi : i ∈ seen
    · simp only [turn, hi, ↓reduceIte]
      rw [spread, dif_pos (.inl hi)]
    · simp only [turn, hi, ↓reduceIte]
      rw [spread, dif_neg (not_or.2 ⟨hi, Nat.not_le.2 hlt⟩)]

theorem spread_iterate (hg : g.Proper) (h : s.InRange g) (n : Nat) :
    g.spread ((turn g)^[n] s).seen ((turn g)^[n] s).queue = g.spread s.seen s.queue := by
  induction n with
  | zero => rfl
  | succ n ih =>
    rw [Function.iterate_succ_apply', spread_turn (h.iterate hg n), ih]

/-- The loop ends, and `Graph.spread` is what it has seen. -/
theorem run_eq (hg : g.Proper) (h : s.InRange g) {n : Nat} (hn : s.weight g ≤ n) :
    (turn g)^[n] s = ⟨g.spread s.seen s.queue, []⟩ := by
  have hq : ((turn g)^[n] s).queue = [] := queue_iterate_eq_nil hn
  have hs := spread_iterate hg h n
  rw [hq, spread] at hs
  rw [← hs, ← hq]

theorem weight_start_le (g : Graph) (roots : List String) :
    (start g roots).weight g ≤ roots.length + g.edges.length :=
  Nat.add_le_add (List.length_filterMap_le _ _) List.countP_le_length

end Sweep

/-! ### The operation on names -/

section
variable {members : List Member} {deps : Dependencies} {roots : List String}

/-- The dependents of some names stand at the closure of their positions. -/
theorem map_get?_withDependents :
    ((ofMembers members deps).withDependents roots).map (positions (members.map (·.name))).get? =
      ((ofMembers members deps).closure (roots.filterMap (positions (members.map (·.name))).get?)).map some := by
  rw [withDependents, List.map_map]
  refine List.map_congr_left fun i hi => ?_
  obtain ⟨-, k, hk, hreach⟩ := (mem_closure (proper_ofMembers members deps)).1 hi
  obtain ⟨r, -, hr⟩ := List.mem_filterMap.1 hk
  rw [adj_ofMembers] at hreach
  obtain ⟨y, hy⟩ := exists_standsAt_of_reflTransGen (get?_positions.1 hr) hreach
  rw [Function.comp_apply, nameAt_ofMembers hy, get?_positions.2 hy]

theorem nodup_withDependents (members : List Member) (deps : Dependencies) (roots : List String) :
    ((ofMembers members deps).withDependents roots).Nodup := by
  refine List.Nodup.of_map (positions (members.map (·.name))).get? ?_
  rw [map_get?_withDependents]
  exact (nodup_closure _ _).map fun _ _ => Option.some.inj

theorem withDependents_withDependents (members : List Member) (deps : Dependencies) (roots : List String) :
    (ofMembers members deps).withDependents ((ofMembers members deps).withDependents roots) =
      (ofMembers members deps).withDependents roots := by
  have known : ((ofMembers members deps).withDependents roots).filterMap (positions (members.map (·.name))).get? =
      (ofMembers members deps).closure (roots.filterMap (positions (members.map (·.name))).get?) := by
    rw [← Function.id_comp (positions (members.map (·.name))).get?, ← List.filterMap_map, map_get?_withDependents,
      List.filterMap_map, Function.id_comp, List.filterMap_some, Function.id_comp]
  have hnames : (ofMembers members deps).names = members.map (·.name) := rfl
  rw [withDependents, hnames, known, closure_closure (proper_ofMembers members deps), withDependents, hnames]

theorem mem_withDependents_self {r : String} (hr : r ∈ roots) (hm : r ∈ members.map (·.name)) :
    r ∈ (ofMembers members deps).withDependents roots :=
  mem_withDependents.2 ⟨r, hr, hm, .refl⟩

theorem withDependents_subset {roots' : List String} (h : roots ⊆ roots') :
    (ofMembers members deps).withDependents roots ⊆ (ofMembers members deps).withDependents roots' := by
  intro x hx
  obtain ⟨r, hr, hm, hreach⟩ := mem_withDependents.1 hx
  exact mem_withDependents.2 ⟨r, h hr, hm, hreach⟩

theorem mem_withDependents_flatten {parts : List (List String)} {x : String} :
    x ∈ (ofMembers members deps).withDependents parts.flatten ↔
      ∃ part ∈ parts, x ∈ (ofMembers members deps).withDependents part := by
  simp only [mem_withDependents, List.mem_flatten]
  constructor
  · rintro ⟨r, ⟨part, hpart, hr⟩, h⟩
    exact ⟨part, hpart, r, hr, h⟩
  · rintro ⟨part, hpart, r, hr, h⟩
    exact ⟨r, ⟨part, hpart, hr⟩, h⟩

end

/-- The loop never looks outside the graph, and its queue is empty after at most one turn for each root and each edge.
What it has seen by then are the names that stand at the positions to be reached from the last positions of the roots,
each once.  As an operation on names this is a closure, and it takes unions to unions. -/
theorem withDependents_closure (members : List Member) (deps : Dependencies) (roots : List String) :
    let g := ofMembers members deps
    let names := members.map (·.name)
    let last := (Sweep.turn g)^[roots.length + g.edges.length] (Sweep.start g roots)
    (∀ n, ((Sweep.turn g)^[n] (Sweep.start g roots)).InRange g) ∧
      last.queue = [] ∧ last.names g = g.withDependents roots ∧
      (g.withDependents roots).Nodup ∧
      (∀ x, x ∈ g.withDependents roots ↔
        ∃ i, names[i]? = some x ∧ ∃ r ∈ roots, ∃ k, StandsAt names r k ∧ ReflTransGen (Edge members deps) k i) ∧
      (∀ r ∈ roots, r ∈ names → r ∈ g.withDependents roots) ∧
      (∀ roots', roots ⊆ roots' → g.withDependents roots ⊆ g.withDependents roots') ∧
      g.withDependents (g.withDependents roots) = g.withDependents roots ∧
      ∀ (parts : List (List String)) (x : String),
        x ∈ g.withDependents parts.flatten ↔ ∃ part ∈ parts, x ∈ g.withDependents part := by
  intro g names last
  have hg : g.Proper := proper_ofMembers members deps
  have hstart : (Sweep.start g roots).InRange g := Sweep.inRange_start members deps roots
  have hlast : last = ⟨g.spread [] (Sweep.start g roots).queue, []⟩ :=
    Sweep.run_eq hg hstart (Sweep.weight_start_le g roots)
  exact ⟨hstart.iterate hg, by rw [hlast], by rw [hlast]; rfl, nodup_withDependents members deps roots,
    fun _ => mem_withDependents_iff_exists, fun _ => mem_withDependents_self, fun _ => withDependents_subset,
    withDependents_withDependents members deps roots, fun _ _ => mem_withDependents_flatten⟩

/-- A cycle of two names, a name that depends on itself, a name that comes twice, and a root outside the graph. -/
theorem withDependents_closure_cycle :
    let members : List Member := [⟨"app", "a", "/ws/a", none, none⟩, ⟨"core", "b", "/ws/b", none, none⟩,
      ⟨"app", "c", "/ws/c", none, none⟩, ⟨"docs", "d", "/ws/d", none, none⟩]
    let g := ofMembers members
      (SortedMap.ofList [("app", ["core"]), ("core", ["app"]), ("docs", ["docs", "react"])])
    let roots := ["react", "core", "core"]
    (∀ n, ((Sweep.turn g)^[n] (Sweep.start g roots)).InRange g) ∧
      ((Sweep.turn g)^[roots.length + g.edges.length] (Sweep.start g roots)).queue = [] ∧
      g.withDependents roots = ["core", "app"] ∧
      roots ⊆ "docs" :: roots ∧ g.withDependents roots ⊆ g.withDependents ("docs" :: roots) := by
  intro members g roots
  obtain ⟨hrange, hqueue, hnames, -, -, -, hmono, -, -⟩ := withDependents_closure members
    (SortedMap.ofList [("app", ["core"]), ("core", ["app"]), ("docs", ["docs", "react"])]) roots
  have hmore : roots ⊆ "docs" :: roots := List.subset_cons_self _ _
  refine ⟨hrange, hqueue, ?_, hmore, hmono _ hmore⟩
  rw [← hnames]
  decide +kernel

end ScriptRunner.Graph
