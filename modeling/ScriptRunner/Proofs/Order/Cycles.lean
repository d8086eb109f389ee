import ScriptRunner.Order.Plan
import ScriptRunner.Proofs.Order.Closure
import ScriptRunner.Proofs.Order.Rounds

/-!
# Cycles of a member list

The layering fails exactly when there is a cycle, and it then names the members on cycles, whatever depends on a cycle
or is depended on by one (`layers_of_cycle`).  The failure is found by counting the positions taken, the names by
reachability; `Rounds` relates the first to cycles and `Closure` the second.

Members on cycles can also be found from the strongly connected components: those of a component with more than one
member, or with an edge to itself.  `componentNames_eq` says that this gives the same names, for any listing of the
components.
-/

namespace ScriptRunner

open Relation

namespace Graph

variable {g : Graph}

/-! ### The names on cycles -/

theorem mem_cycleNames (hg : g.Proper) {x : String} :
    x ∈ g.cycleNames ↔ ∃ i, TransGen g.Adj i i ∧ g.nameAt i = x := by
  simp only [cycleNames, List.mem_mergeSort, List.mem_map, List.mem_filter, List.mem_range, onCycle_iff hg]
  constructor
  · rintro ⟨i, ⟨-, hi⟩, hx⟩
    exact ⟨i, hi, hx⟩
  · rintro ⟨i, hi, hx⟩
    exact ⟨i, ⟨(hg.lt_of_transGen hi).1, hi⟩, hx⟩

private theorem pairwise_le_mergeSort (names : List String) :
    (names.mergeSort fun a b => decide (a ≤ b)).Pairwise (· ≤ ·) := by
  have h : (names.mergeSort fun a b => decide (a ≤ b)).Pairwise fun a b => decide (a ≤ b) :=
    List.pairwise_mergeSort (fun a b c => by simpa using String.le_trans)
      (fun a b => by simpa using String.le_total a b) names
  exact h.imp of_decide_eq_true

theorem pairwise_le_cycleNames : g.cycleNames.Pairwise (· ≤ ·) := pairwise_le_mergeSort _

theorem cycleNames_ne_nil (hg : g.Proper) (h : ∃ i, TransGen g.Adj i i) : g.cycleNames ≠ [] := by
  obtain ⟨i, hi⟩ := h
  exact List.ne_nil_of_mem ((mem_cycleNames hg).2 ⟨i, hi, rfl⟩)

/-- A graph with a cycle has no layers; the failure carries the names on cycles. -/
theorem layers_of_cycle (hg : g.Proper) (h : ∃ i, TransGen g.Adj i i) : g.layers = .error g.cycleNames := by
  have hne : g.cycleNames.isEmpty = false := List.isEmpty_eq_false_iff.2 (cycleNames_ne_nil hg h)
  simp only [layers, if_pos ((taken_lt_iff hg).2 h), hne, Bool.false_eq_true, if_false]

/-- A graph without a cycle has layers. -/
theorem layers_of_acyclic (hg : g.Proper) (h : ¬∃ i, TransGen g.Adj i i) : g.layers = .ok g.layering.layers := by
  simp only [layers, if_neg (mt (taken_lt_iff hg).1 h)]

/-! ### Strongly connected components -/

/-- A listing of the strongly connected components, in any order. -/
structure Components (g : Graph) where
  parts : List (List Nat)
  each_once : parts.flatten.Perm (List.range g.size)
  together : ∀ c ∈ parts, ∀ i ∈ c, ∀ j, j ∈ c ↔ ReflTransGen g.Adj i j ∧ ReflTransGen g.Adj j i

/-- The names in components of more than one member, or with an edge from their only member to itself. -/
def componentNames (g : Graph) (parts : List (List Nat)) : List String :=
  ((parts.filter fun c => 1 < c.length || g.edges.contains (c.headD 0, c.headD 0)).flatten.map g.nameAt).mergeSort
    fun a b => decide (a ≤ b)

private theorem Components.nodup (cs : g.Components) {c : List Nat} (hc : c ∈ cs.parts) : c.Nodup :=
  (List.nodup_flatten.1 (cs.each_once.nodup_iff.2 List.nodup_range)).1 c hc

private theorem Components.selected_iff (cs : g.Components) {c : List Nat} (hc : c ∈ cs.parts) {i : Nat}
    (hi : i ∈ c) :
    (1 < c.length ∨ g.Adj (c.headD 0) (c.headD 0)) ↔ TransGen g.Adj i i := by
  have hnd := cs.nodup hc
  have mem := cs.together c hc i hi
  rcases c with _ | ⟨a, _ | ⟨b, c⟩⟩
  · simp at hi
  · -- a component of one member
    obtain rfl : i = a := List.mem_singleton.1 hi
    simp only [List.length_singleton, Nat.lt_irrefl, List.headD_cons, false_or]
    refine ⟨.single, fun h => ?_⟩
    obtain ⟨j, e, hj⟩ := TransGen.head'_iff.1 h
    obtain rfl : j = i := List.mem_singleton.1 ((mem j).2 ⟨.single e, hj⟩)
    exact e
  · -- two members reach each other
    simp only [List.length_cons, Nat.lt_add_left_iff_pos, Nat.succ_pos, true_or, true_iff]
    obtain ⟨j, hj, hne⟩ : ∃ j ∈ a :: b :: c, j ≠ i := by
      by_cases hia : a = i
      · subst hia
        exact ⟨b, by simp, fun h => by simp [h] at hnd⟩
      · exact ⟨a, by simp, hia⟩
    obtain ⟨hij, hji⟩ := (mem j).1 hj
    rcases hij.cases_head with rfl | ⟨k, e, hkj⟩
    · exact absurd rfl hne
    · exact TransGen.head'_iff.2 ⟨k, e, hkj.trans hji⟩

/-- The components give the same names as reachability. -/
theorem componentNames_eq (hg : g.Proper) (cs : g.Components) : g.componentNames cs.parts = g.cycleNames := by
  have hperm : ((cs.parts.filter fun c => 1 < c.length || g.edges.contains (c.headD 0, c.headD 0)).flatten).Perm
      ((List.range g.size).filter g.onCycle) := by
    obtain ⟨hnd, hdis⟩ := List.nodup_flatten.1 (cs.each_once.nodup_iff.2 List.nodup_range)
    refine (List.perm_ext_iff_of_nodup (List.nodup_flatten.2 ⟨?_, hdis.filter _⟩)
      (List.nodup_range.filter _)).2 fun i => ?_
    · exact fun c hc => hnd c (List.mem_of_mem_filter hc)
    simp only [List.mem_flatten, List.mem_filter, Bool.or_eq_true, decide_eq_true_eq, List.contains_iff_mem,
      onCycle_iff hg, ← cs.each_once.mem_iff]
    constructor
    · rintro ⟨c, ⟨hc, hsel⟩, hi⟩
      exact ⟨⟨c, hc, hi⟩, (cs.selected_iff hc hi).1 hsel⟩
    · rintro ⟨⟨c, hc, hi⟩, h⟩
      exact ⟨c, ⟨hc, (cs.selected_iff hc hi).2 h⟩, hi⟩
  refine List.Perm.eq_of_pairwise (fun a b _ _ => String.le_antisymm) (pairwise_le_mergeSort _)
    pairwise_le_cycleNames ?_
  exact (List.mergeSort_perm _ _).trans ((hperm.map _).trans (List.mergeSort_perm _ _).symm)

/-- Every graph has a listing of its components: each is listed at its smallest position. -/
theorem nonempty_components (hg : g.Proper) : Nonempty g.Components := by
  classical
  let both : Nat → Nat → Prop := fun i j => ReflTransGen g.Adj i j ∧ ReflTransGen g.Adj j i
  have symm : ∀ {i j}, both i j → both j i := fun h => ⟨h.2, h.1⟩
  have trans : ∀ {i j k}, both i j → both j k → both i k := fun h h' => ⟨h.1.trans h'.1, h'.2.trans h.2⟩
  have inside : ∀ {i j}, both i j → i < g.size → j < g.size := fun {i j} h hi => by
    rcases h.1.cases_tail with rfl | ⟨_, _, e⟩
    · exact hi
    · exact hg.target_lt e
  let first : Nat → Prop := fun i => ∀ j < i, ¬both i j
  let part : Nat → List Nat := fun i => (List.range g.size).filter fun j => decide (both i j)
  have mem_part : ∀ {i j}, j ∈ part i ↔ j < g.size ∧ both i j := by simp [part]
  refine ⟨⟨((List.range g.size).filter fun i => decide (first i)).map part, ?_, fun c hc i hi j => ?_⟩⟩
  · refine (List.perm_ext_iff_of_nodup (List.nodup_flatten.2 ⟨?_, ?_⟩) List.nodup_range).2 fun j => ?_
    · intro c hc
      obtain ⟨i, -, rfl⟩ := List.mem_map.1 hc
      exact List.nodup_range.filter _
    · refine List.pairwise_map.2 ((List.pairwise_lt_range.filter _).imp_of_mem fun {i k} _ hk hik j hj hj' => ?_)
      have hfirst : first k := by simpa using (List.mem_filter.1 hk).2
      exact hfirst i hik (trans (mem_part.1 hj').2 (symm (mem_part.1 hj).2))
    · simp only [List.mem_flatten, List.mem_map, List.mem_filter, List.mem_range, decide_eq_true_eq]
      constructor
      · rintro ⟨_, ⟨i, -, rfl⟩, hj⟩
        exact (mem_part.1 hj).1
      · intro hj
        have hex : ∃ i, both j i := ⟨j, .refl, .refl⟩
        have hi := Nat.find_spec hex
        refine ⟨_, ⟨Nat.find hex, ⟨inside hi hj, fun k hk hb => ?_⟩, rfl⟩, mem_part.2 ⟨hj, symm hi⟩⟩
        exact Nat.find_min hex hk (trans hi hb)
  · obtain ⟨r, -, rfl⟩ := List.mem_map.1 hc
    obtain ⟨hi, hri⟩ := mem_part.1 hi
    rw [mem_part]
    exact ⟨fun h => trans (symm hri) h.2, fun h => ⟨inside h hi, trans hri h⟩⟩

end Graph

/-! ### The plan of a member list -/

namespace Plan

variable {members : List Member} {deps : Dependencies}

@[simp] theorem value_ofMembers_ordered : (ofMembers members deps true).value = layered members deps := by
  rw [ofMembers, if_pos rfl]
  cases layered members deps <;> rfl

/-- A position on a cycle stands for a name on a cycle. -/
theorem exists_name_of_cycle {i : Nat} (h : TransGen (Graph.ofMembers members deps).Adj i i) :
    ∃ x, StandsAt (members.map (·.name)) x i ∧ TransGen (NameEdge (members.map (·.name)) deps) x x := by
  rw [Graph.adj_ofMembers] at h
  obtain ⟨_, e, _⟩ := TransGen.head'_iff.1 h
  obtain ⟨x, hx⟩ := e.source
  exact ⟨x, hx, (transGen_edge_iff hx hx).1 h⟩

/-- A name on a cycle has a position on a cycle. -/
theorem exists_position_of_cycle {x : String} (h : TransGen (NameEdge (members.map (·.name)) deps) x x) :
    ∃ i, StandsAt (members.map (·.name)) x i ∧ TransGen (Graph.ofMembers members deps).Adj i i := by
  obtain ⟨_, e, _⟩ := TransGen.head'_iff.1 h
  obtain ⟨i, hi⟩ := exists_standsAt e.1
  refine ⟨i, hi, ?_⟩
  rw [Graph.adj_ofMembers]
  exact (transGen_edge_iff hi hi).2 h

theorem exists_cycle_iff :
    (∃ i, TransGen (Graph.ofMembers members deps).Adj i i) ↔
      ∃ x, TransGen (NameEdge (members.map (·.name)) deps) x x :=
  ⟨fun ⟨_, h⟩ => let ⟨x, _, hx⟩ := exists_name_of_cycle h; ⟨x, hx⟩,
    fun ⟨_, h⟩ => let ⟨i, _, hi⟩ := exists_position_of_cycle h; ⟨i, hi⟩⟩

theorem mem_cycleNames_ofMembers {x : String} :
    x ∈ (Graph.ofMembers members deps).cycleNames ↔ TransGen (NameEdge (members.map (·.name)) deps) x x := by
  rw [Graph.mem_cycleNames (Graph.proper_ofMembers members deps)]
  constructor
  · rintro ⟨i, hi, rfl⟩
    obtain ⟨x, hx, h⟩ := exists_name_of_cycle hi
    rwa [Graph.nameAt_ofMembers hx]
  · intro h
    obtain ⟨i, hx, hi⟩ := exists_position_of_cycle h
    exact ⟨i, hi, Graph.nameAt_ofMembers hx⟩

/-- No name is listed twice, since only the last position of a name has edges. -/
theorem cycleNames_ofMembers_ascending : (Graph.ofMembers members deps).cycleNames.Pairwise (· < ·) := by
  have hg := Graph.proper_ofMembers members deps
  have hnd : (Graph.ofMembers members deps).cycleNames.Nodup := by
    refine (List.mergeSort_perm _ _).nodup_iff.2 (List.Nodup.map_on ?_ (List.nodup_range.filter _))
    intro i hi j hj hij
    obtain ⟨x, hx, -⟩ := exists_name_of_cycle ((Graph.onCycle_iff hg).1 (List.mem_filter.1 hi).2)
    obtain ⟨y, hy, -⟩ := exists_name_of_cycle ((Graph.onCycle_iff hg).1 (List.mem_filter.1 hj).2)
    rw [Graph.nameAt_ofMembers hx, Graph.nameAt_ofMembers hy] at hij
    exact hx.unique (hij ▸ hy)
  refine Graph.pairwise_le_cycleNames.imp₂ (fun a b hle hne => ?_) hnd
  by_contra hlt
  exact hne (String.le_antisymm hle (String.not_lt.1 hlt))

theorem layered_of_cycle (h : ∃ x, TransGen (NameEdge (members.map (·.name)) deps) x x) :
    layered members deps = .error (Graph.ofMembers members deps).cycleNames := by
  rw [layered, Graph.layers_of_cycle (Graph.proper_ofMembers members deps) (exists_cycle_iff.2 h)]
  rfl

theorem layered_of_acyclic (h : ¬∃ x, TransGen (NameEdge (members.map (·.name)) deps) x x) :
    layered members deps =
      .ok ⟨(Graph.ofMembers members deps).layering.layers.map (·.filterMap (members[·]?))⟩ := by
  rw [layered, Graph.layers_of_acyclic (Graph.proper_ofMembers members deps) (mt exists_cycle_iff.1 h)]
  rfl

/-- Ordering fails exactly when there is a cycle, and then with the names on cycles, sorted and each once; they are also
the names that any listing of the strongly connected components gives. -/
theorem error_iff_cycle (members : List Member) (deps : Dependencies) :
    ((∃ names, (ofMembers members deps true).value = .error names) ↔
        ∃ x, TransGen (NameEdge (members.map (·.name)) deps) x x) ∧
      ∀ names, (ofMembers members deps true).value = .error names ↔
        (∃ x, TransGen (NameEdge (members.map (·.name)) deps) x x) ∧
          names.Pairwise (· < ·) ∧ (∀ x, x ∈ names ↔ TransGen (NameEdge (members.map (·.name)) deps) x x) ∧
            ∀ cs : (Graph.ofMembers members deps).Components,
              (Graph.ofMembers members deps).componentNames cs.parts = names := by
  have hg := Graph.proper_ofMembers members deps
  have key : ∀ names, (ofMembers members deps true).value = .error names ↔
      (∃ x, TransGen (NameEdge (members.map (·.name)) deps) x x) ∧
        names = (Graph.ofMembers members deps).cycleNames := by
    intro names
    rw [value_ofMembers_ordered]
    by_cases h : ∃ x, TransGen (NameEdge (members.map (·.name)) deps) x x
    · rw [layered_of_cycle h]
      simp only [Except.error.injEq, h, true_and, eq_comm]
    · rw [layered_of_acyclic h]
      simp [h]
  refine ⟨⟨fun ⟨names, h⟩ => ((key names).1 h).1, fun h => ⟨_, (key _).2 ⟨h, rfl⟩⟩⟩, fun names => ?_⟩
  rw [key]
  refine and_congr_right fun _ => ⟨?_, ?_⟩
  · rintro rfl
    exact ⟨cycleNames_ofMembers_ascending, fun _ => mem_cycleNames_ofMembers, Graph.componentNames_eq hg⟩
  · rintro ⟨-, -, hcs⟩
    obtain ⟨cs⟩ := Graph.nonempty_components hg
    rw [← hcs cs, Graph.componentNames_eq hg]

end Plan

end ScriptRunner
