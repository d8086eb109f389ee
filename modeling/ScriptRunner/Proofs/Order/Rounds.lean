import Mathlib.Data.List.Nodup
import ScriptRunner.Order.Layers
import ScriptRunner.Proofs.Order.Edges
import ScriptRunner.Proofs.Order.Heights

/-!
# Rounds of the layering

`Stage g s` is what holds between two rounds: a counter holds the number of edges from positions that have not been
taken (`unmet`), and the layers, those taken and the one that comes next, are the positions of height `0`, `1`, ….
A round keeps it (`Stage.round`), because counting down along the edges of a layer takes every counter to the number
of edges that are still unmet (`foldl_countDown`), and lists a position once when none is left.

At the end no layer comes next (`current_layering`), and a position is left over exactly when the graph has a cycle
(`taken_lt_iff`).
-/

namespace ScriptRunner.Graph

open Relation

variable {g : Graph}

/-! ### Counting down -/

/-- How many edges of a list end at a position. -/
def into (es : List (Nat × Nat)) (v : Nat) : Nat := es.countP fun e => e.2 = v

/-- What following some edges has done to the counters and to the positions that are ready. -/
structure CountedDown (es : List (Nat × Nat)) (before after : List Nat × List Nat) : Prop where
  length : after.1.length = before.1.length
  left : ∀ v, after.1.getD v 0 = before.1.getD v 0 - into es v
  nodup : after.2.Nodup
  mem : ∀ v, v ∈ after.2 ↔ v ∈ before.2 ∨ 0 < into es v ∧ into es v = before.1.getD v 0

private theorem into_cons (e : Nat × Nat) (es : List (Nat × Nat)) (v : Nat) :
    into (e :: es) v = into es v + if v = e.2 then 1 else 0 := by
  simp only [into, List.countP_cons, decide_eq_true_eq]
  congr 2
  exact propext eq_comm

private theorem countDown_left {s : List Nat × List Nat} {e : Nat × Nat} (he : e.2 < s.1.length) (v : Nat) :
    (countDown s e).1.getD v 0 = s.1.getD v 0 - if v = e.2 then 1 else 0 := by
  simp only [countDown, List.getD_eq_getElem?_getD, List.getElem?_set]
  by_cases hv : v = e.2
  · subst hv
    simp [he]
  · simp [hv, Ne.symm hv]

private theorem mem_countDown {s : List Nat × List Nat} {e : Nat × Nat} (he : 0 < s.1.getD e.2 0) (v : Nat) :
    v ∈ (countDown s e).2 ↔ v ∈ s.2 ∨ v = e.2 ∧ s.1.getD e.2 0 = 1 := by
  simp only [countDown]
  split
  · have : s.1.getD e.2 0 = 1 := by omega
    simp only [List.mem_append, List.mem_singleton, this, and_true]
  · have : s.1.getD e.2 0 ≠ 1 := by omega
    simp only [this, and_false, or_false]

private theorem nodup_countDown {s : List Nat × List Nat} {e : Nat × Nat} (h : s.2.Nodup) (he : e.2 ∉ s.2) :
    (countDown s e).2.Nodup := by
  simp only [countDown]
  split
  · refine List.nodup_append.2 ⟨h, by simp, fun a ha b hb hab => he ?_⟩
    rwa [← List.mem_singleton.1 hb, ← hab]
  · exact h

/-- If no counter is smaller than the number of edges into its position, none of them underflows, and a position
becomes ready with the last of its edges. -/
theorem foldl_countDown {es : List (Nat × Nat)} {s : List Nat × List Nat} (hes : ∀ e ∈ es, e.2 < s.1.length)
    (hle : ∀ v, into es v ≤ s.1.getD v 0) (hnd : s.2.Nodup) (h0 : ∀ v ∈ s.2, s.1.getD v 0 = 0) :
    CountedDown es s (es.foldl countDown s) := by
  induction es generalizing s with
  | nil => exact ⟨rfl, fun v => by simp [into], hnd, fun v => by simp [into]⟩
  | cons e es ih =>
    have hle' : ∀ v, into es v + (if v = e.2 then 1 else 0) ≤ s.1.getD v 0 := fun v => into_cons e es v ▸ hle v
    have hleft := countDown_left (hes e (by simp))
    have hpos : 0 < s.1.getD e.2 0 := by
      have := hle' e.2
      rw [if_pos rfl] at this
      omega
    have hready : e.2 ∉ s.2 := fun h => absurd (h0 _ h) (by omega)
    have key : CountedDown es (countDown s e) (es.foldl countDown (countDown s e)) := by
      refine ih ?_ ?_ (nodup_countDown hnd hready) ?_
      · intro d hd
        simpa [countDown] using hes d (by simp [hd])
      · intro v
        have := hle' v
        rw [hleft]
        omega
      · intro v hv
        rw [hleft]
        rcases (mem_countDown hpos v).1 hv with hv | ⟨rfl, h1⟩
        · rw [h0 v hv, Nat.zero_sub]
        · rw [h1, if_pos rfl]
    refine ⟨by simpa [countDown] using key.length, fun v => ?_, key.nodup, fun v => ?_⟩
    · rw [List.foldl_cons, key.left, hleft, into_cons]
      omega
    · have := hle' v
      rw [List.foldl_cons, key.mem, mem_countDown hpos, hleft, into_cons]
      by_cases hv : v = e.2
      · subst hv
        simp only [↓reduceIte, hready, false_or, true_and] at this ⊢
        omega
      · simp [hv]

/-! ### The edges of a round -/

/-- How many edges lead to a position from positions that have not been taken. -/
def unmet (g : Graph) (taken : List Nat) (v : Nat) : Nat := g.edges.countP fun e => e.2 = v ∧ e.1 ∉ taken

theorem unmet_eq_zero_iff {taken : List Nat} {v : Nat} : g.unmet taken v = 0 ↔ ∀ u, g.Adj u v → u ∈ taken := by
  simp only [unmet, List.countP_eq_zero, decide_eq_true_eq, not_and, Decidable.not_not, Prod.forall, Adj]
  exact ⟨fun h u hu => h u v hu rfl, fun h u v' hu hv => h u (hv ▸ hu)⟩

theorem mem_edgesFrom {layer : List Nat} {i j : Nat} :
    (i, j) ∈ g.edgesFrom layer ↔ i ∈ layer ∧ g.Adj i j ∧ j ≠ i := by
  simp only [edgesFrom, List.mem_flatMap, List.mem_map, List.mem_filter, mem_dependents, decide_eq_true_eq,
    Prod.mk.injEq]
  constructor
  · rintro ⟨k, hk, d, ⟨hd, hne⟩, rfl, rfl⟩
    exact ⟨hk, hd, hne⟩
  · rintro ⟨hi, hd, hne⟩
    exact ⟨i, hi, j, ⟨hd, hne⟩, rfl, rfl⟩

theorem into_edgesFrom_pos {layer : List Nat} {v : Nat} :
    0 < into (g.edgesFrom layer) v ↔ ∃ u ∈ layer, g.Adj u v ∧ v ≠ u := by
  simp only [into, List.countP_pos_iff, decide_eq_true_eq, Prod.exists, mem_edgesFrom]
  constructor
  · rintro ⟨u, _, ⟨hu, he, hne⟩, rfl⟩
    exact ⟨u, hu, he, hne⟩
  · rintro ⟨u, hu, he, hne⟩
    exact ⟨u, v, ⟨hu, he, hne⟩, rfl⟩

theorem nodup_edgesFrom (hg : g.Proper) {layer : List Nat} (h : layer.Nodup) :
    (g.edgesFrom layer).Nodup := by
  refine List.nodup_flatMap.2 ⟨fun i _ => ?_, h.imp fun {i j} hij => ?_⟩
  · refine (List.Nodup.filter _ ?_).map fun a b hab => (Prod.mk.inj hab).2
    refine List.Nodup.map_on ?_ (hg.nodup.filter _)
    intro a ha b hb hab
    simp only [List.mem_filter, decide_eq_true_eq] at ha hb
    exact Prod.ext (ha.2.trans hb.2.symm) hab
  · intro e he he'
    simp only [List.mem_map] at he he'
    obtain ⟨_, _, rfl⟩ := he
    obtain ⟨_, _, he'⟩ := he'
    exact hij (Prod.mk.inj he').1.symm

/-- Some of the edges are counted apart from the others. -/
theorem countP_edges_eq_add (hg : g.Proper) {es : List (Nat × Nat)} (hnd : es.Nodup) (hsub : es ⊆ g.edges)
    (p : Nat × Nat → Prop) [DecidablePred p] :
    (g.edges.countP fun e => p e) = (es.countP fun e => p e) + g.edges.countP fun e => p e ∧ e ∉ es := by
  have hperm : es.Perm (g.edges.filter fun e => e ∈ es) := by
    refine (List.perm_ext_iff_of_nodup hnd (hg.nodup.filter _)).2 fun e => ?_
    rw [List.mem_filter, decide_eq_true_eq]
    exact ⟨fun he => ⟨hsub he, he⟩, fun he => he.2⟩
  rw [hperm.countP_eq, List.countP_eq_countP_filter_add g.edges _ fun e => decide (e ∈ es), List.countP_filter,
    List.countP_filter]
  congr 1
  refine List.countP_congr fun e _ => ?_
  simp only [Bool.and_eq_true, Bool.not_eq_true', decide_eq_true_eq, decide_eq_false_iff_not]

/-- Taking a layer meets the edges that are followed in its round. -/
theorem unmet_append (hg : g.Proper) {taken layer : List Nat} (hnd : layer.Nodup) (hself : ∀ i ∈ layer, ¬g.Adj i i)
    (hdis : ∀ i ∈ layer, i ∉ taken) (v : Nat) :
    g.unmet taken v = g.unmet (taken ++ layer) v + into (g.edgesFrom layer) v := by
  have hmem : ∀ e, e ∈ g.edgesFrom layer ↔ e ∈ g.edges ∧ e.1 ∈ layer := by
    rintro ⟨i, j⟩
    rw [mem_edgesFrom]
    constructor
    · rintro ⟨hi, he, -⟩
      exact ⟨he, hi⟩
    · rintro ⟨he, hi⟩
      exact ⟨hi, he, fun hij => hself i hi (by rwa [hij] at he)⟩
  rw [unmet, countP_edges_eq_add hg (nodup_edgesFrom hg hnd) (fun e he => ((hmem e).1 he).1)
    (fun e => e.2 = v ∧ e.1 ∉ taken), Nat.add_comm]
  congr 1
  · refine List.countP_congr fun e he => ?_
    simp only [hmem, List.mem_append, decide_eq_true_eq]
    tauto
  · refine List.countP_congr fun e he => ?_
    have := hdis e.1 ((hmem e).1 he).2
    simp only [decide_eq_true_eq]
    tauto

/-! ### What holds between two rounds -/

/-- The positions of one height, in ascending order. -/
structure IsLayer (g : Graph) (k : Nat) (l : List Nat) : Prop where
  ascending : l.Pairwise (· < ·)
  mem : ∀ i, i ∈ l ↔ i < g.size ∧ Height g.Adj k i

/-- The state of the layering between two rounds. -/
structure Stage (g : Graph) (s : Layering) : Prop where
  length : s.waiting.length = g.size
  waiting : ∀ v, s.waiting.getD v 0 = g.unmet s.layers.flatten v
  layers : ∀ k l, s.layers[k]? = some l → g.IsLayer k l
  current : g.IsLayer s.layers.length s.current

theorem IsLayer.nodup {k : Nat} {l : List Nat} (h : g.IsLayer k l) : l.Nodup := h.ascending.imp Nat.ne_of_lt

/-- No position of a layer has an edge to itself. -/
theorem IsLayer.not_adj_self {k i : Nat} {l : List Nat} (h : g.IsLayer k l) (hi : i ∈ l) : ¬g.Adj i i := fun e =>
  have hh := ((h.mem i).1 hi).2
  absurd (hh.lt_of_edge hh e) (by omega)

private theorem ascending_mergeSort {l : List Nat} (h : l.Nodup) :
    (l.mergeSort fun a b => decide (a ≤ b)).Pairwise (· < ·) := by
  have hle : (l.mergeSort fun a b => decide (a ≤ b)).Pairwise fun a b => decide (a ≤ b) :=
    List.pairwise_mergeSort (fun a b c => by simpa using Nat.le_trans) (fun a b => by simpa using Nat.le_total a b) l
  have hnd := (List.mergeSort_perm l fun a b => decide (a ≤ b)).nodup_iff.2 h
  exact hle.imp₂ (fun a b hab hne => Nat.lt_of_le_of_ne (of_decide_eq_true hab) hne) hnd

namespace Stage

variable {s : Layering}

/-- The positions taken are those whose height is smaller than the number of layers. -/
theorem mem_taken (h : Stage g s) (i : Nat) :
    i ∈ s.layers.flatten ↔ i < g.size ∧ Below g.Adj s.layers.length i := by
  rw [List.mem_flatten, below_iff_exists_height]
  constructor
  · rintro ⟨l, hl, hi⟩
    obtain ⟨k, hk⟩ := List.mem_iff_getElem?.1 hl
    obtain ⟨hlt, hh⟩ := ((h.layers k l hk).mem i).1 hi
    exact ⟨hlt, k, (List.getElem?_eq_some_iff.1 hk).1, hh⟩
  · rintro ⟨hlt, k, hk, hh⟩
    have hl := List.getElem?_eq_getElem hk
    exact ⟨s.layers[k], List.getElem_mem hk, ((h.layers k _ hl).mem i).2 ⟨hlt, hh⟩⟩

theorem not_mem_taken (h : Stage g s) {i : Nat} (hi : i ∈ s.current) : i ∉ s.layers.flatten := fun ht =>
  (height_iff.1 ((h.current.mem i).1 hi).2).2 ((h.mem_taken i).1 ht).2

theorem mem_taken_or_current (h : Stage g s) (i : Nat) :
    i ∈ s.layers.flatten ++ s.current ↔ i < g.size ∧ Below g.Adj (s.layers.length + 1) i := by
  rw [List.mem_append, h.mem_taken, h.current.mem, height_iff]
  constructor
  · rintro (⟨hlt, hb⟩ | ⟨hlt, hb, -⟩)
    · exact ⟨hlt, hb.mono (by omega)⟩
    · exact ⟨hlt, hb⟩
  · rintro ⟨hlt, hb⟩
    by_cases ht : Below g.Adj s.layers.length i
    · exact .inl ⟨hlt, ht⟩
    · exact .inr ⟨hlt, hb, ht⟩

/-- No position is taken twice. -/
theorem nodup_taken (h : Stage g s) : s.layers.flatten.Nodup := by
  refine List.nodup_flatten.2 ⟨fun l hl => ?_, List.pairwise_iff_getElem.2 fun j k hj hk hjk i hi hi' => ?_⟩
  · obtain ⟨k, hk⟩ := List.mem_iff_getElem?.1 hl
    exact (h.layers k l hk).nodup
  · have h₁ := (((h.layers j _ (List.getElem?_eq_getElem hj)).mem i).1 hi).2
    have h₂ := (((h.layers k _ (List.getElem?_eq_getElem hk)).mem i).1 hi').2
    have := h₁.unique h₂
    omega

theorem nodup_taken_append_current (h : Stage g s) : (s.layers.flatten ++ s.current).Nodup :=
  List.nodup_append.2 ⟨h.nodup_taken, h.current.nodup, fun _ ha _ hb hab => h.not_mem_taken hb (hab ▸ ha)⟩

/-- Not more positions are taken than there are. -/
theorem length_taken_le (h : Stage g s) : s.layers.flatten.length + s.current.length ≤ g.size := by
  rw [← List.length_append, ← List.length_range (n := g.size)]
  refine (h.nodup_taken_append_current.subperm fun i hi => ?_).length_le
  exact List.mem_range.2 ((h.mem_taken_or_current i).1 hi).1

/-- The counters allow every step of the next round. -/
theorem unmet_eq (hg : g.Proper) (h : Stage g s) (v : Nat) :
    s.waiting.getD v 0 = g.unmet (s.layers.flatten ++ s.current) v + into (g.edgesFrom s.current) v := by
  rw [h.waiting]
  exact unmet_append hg h.current.nodup (fun _ => h.current.not_adj_self) (fun _ => h.not_mem_taken) v

/-- Following the first edges of the next round counts them down. -/
theorem countedDown_of_append (hg : g.Proper) (h : Stage g s) {es rest : List (Nat × Nat)}
    (hes : g.edgesFrom s.current = es ++ rest) :
    CountedDown es (s.waiting, []) (es.foldl countDown (s.waiting, [])) := by
  refine foldl_countDown (fun e he => ?_) (fun v => ?_) List.nodup_nil (by simp)
  · have hmem : e ∈ g.edgesFrom s.current := hes ▸ List.mem_append_left rest he
    rw [h.length]
    exact hg.target_lt (mem_edgesFrom.1 hmem).2.1
  · have hle : into es v ≤ into (g.edgesFrom s.current) v := hes ▸ (List.sublist_append_left es rest).countP_le
    have := h.unmet_eq hg v
    dsimp only
    omega

theorem countedDown (hg : g.Proper) (h : Stage g s) :
    CountedDown (g.edgesFrom s.current) (s.waiting, []) ((g.edgesFrom s.current).foldl countDown (s.waiting, [])) :=
  h.countedDown_of_append hg (List.append_nil _).symm

/-- The positions whose last dependency is taken in a round are those of the next height. -/
theorem ready_iff (hg : g.Proper) (h : Stage g s) (v : Nat) :
    g.unmet (s.layers.flatten ++ s.current) v = 0 ∧ 0 < into (g.edgesFrom s.current) v ↔
      v < g.size ∧ Height g.Adj (s.layers.length + 1) v := by
  rw [unmet_eq_zero_iff, into_edgesFrom_pos, height_iff, below_succ, below_succ]
  constructor
  · rintro ⟨hall, u, hu, e, -⟩
    refine ⟨hg.target_lt e, fun w e' => ((h.mem_taken_or_current w).1 (hall w e')).2, fun hb => ?_⟩
    exact h.not_mem_taken hu ((h.mem_taken u).2 ⟨hg.source_lt e, hb u e⟩)
  · rintro ⟨-, hall, hsome⟩
    have hmem : ∀ u, g.Adj u v → u ∈ s.layers.flatten ++ s.current := fun u e =>
      (h.mem_taken_or_current u).2 ⟨hg.source_lt e, hall u e⟩
    refine ⟨hmem, ?_⟩
    obtain ⟨u, e, hu⟩ : ∃ u, g.Adj u v ∧ ¬Below g.Adj s.layers.length u := by simpa using hsome
    have hcur : u ∈ s.current :=
      (List.mem_append.1 (hmem u e)).resolve_left fun ht => hu ((h.mem_taken u).1 ht).2
    exact ⟨u, hcur, e, fun hvu => h.current.not_adj_self hcur (hvu ▸ e)⟩

/-- A round keeps the counters and the layers right. -/
theorem round (hg : g.Proper) (h : Stage g s) : Stage g (s.round g) := by
  have key := h.countedDown hg
  have hlen : (s.layers ++ [s.current]).length = s.layers.length + 1 := by simp
  refine ⟨key.length.trans h.length, fun v => ?_, fun k l hl => ?_, ?_, fun v => ?_⟩
  · show ((g.edgesFrom s.current).foldl countDown (s.waiting, [])).1.getD v 0 =
      g.unmet (s.layers ++ [s.current]).flatten v
    rw [key.left, List.flatten_append, List.flatten_singleton]
    have := h.unmet_eq hg v
    dsimp only
    omega
  · rcases Nat.lt_or_ge k s.layers.length with hk | hk
    · exact h.layers k l (by rw [← hl]; exact (List.getElem?_append_left hk).symm)
    · have hk' : k < s.layers.length + 1 := hlen ▸ (List.getElem?_eq_some_iff.1 hl).1
      obtain rfl : k = s.layers.length := by omega
      have : some s.current = some l := by rw [← hl]; exact List.getElem?_concat_length.symm
      exact Option.some.inj this ▸ h.current
  · exact ascending_mergeSort key.nodup
  · show v ∈ List.mergeSort _ _ ↔ v < g.size ∧ Height g.Adj (s.layers ++ [s.current]).length v
    rw [hlen, List.mem_mergeSort, key.mem, ← h.ready_iff hg]
    have := h.unmet_eq hg v
    simp only [List.not_mem_nil, false_or]
    omega

end Stage

theorem stage_start (hg : g.Proper) : Stage g (Layering.start g) := by
  have hw : ∀ v, g.inDegrees.getD v 0 = g.unmet [] v := fun v => by
    have hlen : ∀ v, (g.dependencies v).length = g.unmet [] v := fun v => by
      simp [dependencies, unmet, List.countP_eq_length_filter]
    rcases Nat.lt_or_ge v g.size with hv | hv
    · simp [inDegrees, List.getD_eq_getElem?_getD, hv, hlen]
    · have hzero : g.unmet [] v = 0 := unmet_eq_zero_iff.2 fun u e => absurd (hg.target_lt e) (by omega)
      simp [inDegrees, List.getD_eq_getElem?_getD, hv, hzero]
  refine ⟨by simp [Layering.start, inDegrees], hw, fun k l hl => by simp [Layering.start] at hl, ?_, fun v => ?_⟩
  · exact List.pairwise_lt_range.filter _
  · show v ∈ (List.range g.size).filter _ ↔ v < g.size ∧ Height g.Adj 0 v
    have hz : g.unmet [] v = 0 ↔ Below g.Adj 1 v := by
      rw [unmet_eq_zero_iff, below_succ]
      simp [not_below_zero]
    rw [List.mem_filter, List.mem_range, decide_eq_true_eq, hw v, hz, height_iff]
    simp [not_below_zero]

/-! ### The whole run -/

/-- A round takes no empty layer. -/
theorem Layering.round_ne_nil {s : Layering} (hne : ∀ l ∈ s.layers, l ≠ []) (hc : s.current ≠ []) :
    ∀ l ∈ (s.round g).layers, l ≠ [] := by
  intro l hl
  rcases List.mem_append.1 hl with hl | hl
  · exact hne l hl
  · rw [List.mem_singleton.1 hl]
    exact hc

/-- Rounds keep what holds between them; they stop early only when nothing comes next, and they take no empty layer. -/
theorem stage_run (hg : g.Proper) {fuel : Nat} {s : Layering} (h : Stage g s) (hne : ∀ l ∈ s.layers, l ≠ []) :
    let t := Layering.run g fuel s
    Stage g t ∧ (∀ l ∈ t.layers, l ≠ []) ∧ (t.current = [] ∨ t.layers.length = s.layers.length + fuel) := by
  induction fuel generalizing s with
  | zero => exact ⟨h, hne, .inr rfl⟩
  | succ fuel ih =>
    simp only [Layering.run]
    split
    · rename_i hc
      exact ⟨h, hne, .inl (List.isEmpty_iff.1 hc)⟩
    · rename_i hc
      have hlen : (s.round g).layers.length = s.layers.length + 1 := by simp [Layering.round]
      have hne' : ∀ l ∈ (s.round g).layers, l ≠ [] :=
        Layering.round_ne_nil hne fun h => hc (List.isEmpty_iff.2 h)
      obtain ⟨h₁, h₂, h₃⟩ := ih (h.round hg) hne'
      exact ⟨h₁, h₂, h₃.imp id fun h => by omega⟩

theorem stage_layering (hg : g.Proper) : Stage g g.layering :=
  (stage_run hg (stage_start hg) (by simp [Layering.start])).1

theorem layers_layering_ne_nil (hg : g.Proper) : ∀ l ∈ g.layering.layers, l ≠ [] :=
  (stage_run hg (stage_start hg) (by simp [Layering.start])).2.1

private theorem length_le_length_flatten {ls : List (List Nat)} (h : ∀ l ∈ ls, l ≠ []) :
    ls.length ≤ ls.flatten.length := by
  induction ls with
  | nil => simp
  | cons l ls ih =>
    have := ih fun m hm => h m (by simp [hm])
    have := List.length_pos_iff.2 (h l (by simp))
    simp only [List.length_cons, List.flatten_cons, List.length_append]
    omega

/-- There are at most as many rounds as positions. -/
theorem Stage.length_layers_le {s : Layering} (h : Stage g s) (hne : ∀ l ∈ s.layers, l ≠ []) :
    s.layers.length ≤ g.size := by
  have h₁ := h.length_taken_le
  have h₂ := length_le_length_flatten hne
  omega

/-- As many rounds as there are positions are enough. -/
theorem current_layering (hg : g.Proper) : g.layering.current = [] := by
  have hrun : g.layering.current = [] ∨ g.layering.layers.length = 0 + g.size :=
    (stage_run hg (stage_start hg) (by simp [Layering.start])).2.2
  rcases hrun with hc | hlen
  · exact hc
  · have h₁ := (stage_layering hg).length_taken_le
    have h₂ := length_le_length_flatten (layers_layering_ne_nil hg)
    exact List.length_eq_zero_iff.1 (by omega)

/-- What is not taken at the end has a predecessor that is not taken either. -/
theorem below_layering_succ (hg : g.Proper) {v : Nat} (hv : v < g.size) :
    Below g.Adj (g.layering.layers.length + 1) v ↔ Below g.Adj g.layering.layers.length v := by
  have hs := stage_layering hg
  have := hs.mem_taken_or_current v
  rw [current_layering hg, List.append_nil, hs.mem_taken v] at this
  simpa [hv] using this.symm

/-- Fewer positions are taken than there are exactly when one is left over. -/
theorem taken_lt_iff_exists (hg : g.Proper) :
    g.layering.taken < g.size ↔ ∃ v < g.size, v ∉ g.layering.layers.flatten := by
  have hs := stage_layering hg
  constructor
  · intro hlt
    by_contra hall
    have hsub : List.range g.size ⊆ g.layering.layers.flatten := fun v hv => by
      by_contra hn
      exact hall ⟨v, List.mem_range.1 hv, hn⟩
    have := (List.nodup_range.subperm hsub).length_le
    rw [List.length_range] at this
    exact absurd hlt (Nat.not_lt.2 this)
  · rintro ⟨i, hlt, hn⟩
    have hsub : i :: g.layering.layers.flatten ⊆ List.range g.size := by
      intro v hv
      rcases List.mem_cons.1 hv with rfl | hv
      · exact List.mem_range.2 hlt
      · exact List.mem_range.2 ((hs.mem_taken v).1 hv).1
    have := ((List.nodup_cons.2 ⟨hn, hs.nodup_taken⟩).subperm hsub).length_le
    rwa [List.length_range] at this

/-- Positions are left over exactly when there is a cycle. -/
theorem taken_lt_iff (hg : g.Proper) : g.layering.taken < g.size ↔ ∃ i, TransGen g.Adj i i := by
  have hs := stage_layering hg
  rw [taken_lt_iff_exists hg]
  constructor
  · rintro ⟨v, hv, hn⟩
    -- the positions left over are a finite set in which everything has a predecessor
    let left : Set Nat := {v | v < g.size ∧ ¬Below g.Adj g.layering.layers.length v}
    have hfin : left.Finite := (Set.finite_lt_nat g.size).subset fun v hv => hv.1
    have hpred : ∀ v ∈ left, ∃ u ∈ left, g.Adj u v := by
      rintro v ⟨hv, hn⟩
      rw [← below_layering_succ hg hv, below_succ] at hn
      obtain ⟨u, e, hu⟩ : ∃ u, g.Adj u v ∧ ¬Below g.Adj g.layering.layers.length u := by simpa using hn
      exact ⟨u, ⟨hg.source_lt e, hu⟩, e⟩
    obtain ⟨c, -, hc⟩ := exists_cycle hfin hpred (i := v) ⟨hv, fun hb => hn ((hs.mem_taken v).2 ⟨hv, hb⟩)⟩
    exact ⟨c, hc⟩
  · rintro ⟨i, hi⟩
    obtain ⟨j, e, -⟩ := TransGen.head'_iff.1 hi
    exact ⟨i, hg.source_lt e, fun ht => not_below_of_cycle hi _ ((hs.mem_taken i).1 ht).2⟩

end ScriptRunner.Graph
