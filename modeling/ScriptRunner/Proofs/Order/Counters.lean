import Mathlib.Data.Set.Card
import Mathlib.Logic.Function.Iterate
import ScriptRunner.Proofs.Order.Cycles

/-!
# Counters edge by edge

`Following` is the state of the layering inside a round.  A turn looks at one edge of the current layer and counts its
end down, unless the edge leads back to where it starts; when no edge is ahead, the next round begins.  The turns go
through the rounds of `Graph.layering` and stop where it stops (`exists_after_eq`).

After any number of turns a counter is the number of edges into its position that no turn has looked at
(`Midway.waiting_eq`).  So it is not zero when an edge to the position is looked at, since this edge is one of them.  A
position becomes ready with the last of its edges, hence once; one with an edge to itself never does, so no edge of a
layer leads back.
-/

namespace ScriptRunner.Graph

open Relation

variable {g : Graph}

/-- The edges from a layer, in the order in which they are looked at. -/
def outgoing (g : Graph) (layer : List Nat) : List (Nat × Nat) :=
  layer.flatMap fun i => (g.dependents i).map fun d => (i, d)

/-- The state inside a round. -/
structure Following where
  waiting : List Nat
  /-- The layers of earlier rounds. -/
  layers : List (List Nat)
  /-- The layer whose edges are followed. -/
  current : List Nat
  /-- The edges of this layer that have not been looked at. -/
  ahead : List (Nat × Nat)
  /-- The positions of the next layer found so far. -/
  ready : List Nat
  deriving DecidableEq, Repr

namespace Following

/-- The beginning of a round. -/
def enter (g : Graph) (s : Layering) : Following := ⟨s.waiting, s.layers, s.current, g.outgoing s.current, []⟩

def turn (g : Graph) (f : Following) : Following :=
  match f.ahead with
  | e :: ahead =>
    -- an edge that leads back is passed over
    if e.2 = e.1 then { f with ahead }
    else
      let counted := countDown (f.waiting, f.ready) e
      { f with waiting := counted.1, ahead, ready := counted.2 }
  | [] =>
    if f.current.isEmpty then f
    else enter g ⟨f.waiting, f.ready.mergeSort fun a b => decide (a ≤ b), f.layers ++ [f.current]⟩

/-- The state after so many turns. -/
def after (g : Graph) (n : Nat) : Following := (turn g)^[n] (enter g (Layering.start g))

/-- One of the first turns has looked at the edge. -/
def Seen (g : Graph) (n : Nat) (e : Nat × Nat) : Prop := ∃ m < n, (after g m).ahead.head? = some e

variable {f : Following}

theorem turn_of_cons {e : Nat × Nat} {ahead : List (Nat × Nat)} (h : f.ahead = e :: ahead) (he : e.2 ≠ e.1) :
    f.turn g = { f with
      waiting := (countDown (f.waiting, f.ready) e).1, ahead, ready := (countDown (f.waiting, f.ready) e).2 } := by
  simp only [turn, h, if_neg he]

theorem turn_of_nil (h : f.ahead = []) (hc : f.current ≠ []) :
    f.turn g =
      enter g ⟨f.waiting, f.ready.mergeSort fun a b => decide (a ≤ b), f.layers ++ [f.current]⟩ := by
  simp only [turn, h, List.isEmpty_iff, if_neg hc]

theorem turn_of_over (h : f.ahead = []) (hc : f.current = []) : f.turn g = f := by
  simp only [turn, h, hc, List.isEmpty_nil, if_true]

theorem after_succ (g : Graph) (n : Nat) : after g (n + 1) = (after g n).turn g :=
  Function.iterate_succ_apply' _ _ _

theorem seen_succ {n : Nat} {e : Nat × Nat} : Seen g (n + 1) e ↔ Seen g n e ∨ (after g n).ahead.head? = some e := by
  constructor
  · rintro ⟨m, hm, he⟩
    rcases Nat.lt_or_eq_of_le (Nat.le_of_lt_succ hm) with hm | rfl
    · exact .inl ⟨m, hm, he⟩
    · exact .inr he
  · rintro (⟨m, hm, he⟩ | he)
    · exact ⟨m, by omega, he⟩
    · exact ⟨n, by omega, he⟩

end Following

/-! ### Inside a round -/

/-- The edges to a position are counted by where they start. -/
theorem countP_edges_eq_ncard (hg : g.Proper) (v : Nat) (p : Nat × Nat → Prop) [DecidablePred p] :
    (g.edges.countP fun e => e.2 = v ∧ p e) = {u | g.Adj u v ∧ p (u, v)}.ncard := by
  have hset : {u | g.Adj u v ∧ p (u, v)} = ((g.edges.filter fun e => e.2 = v ∧ p e).map (·.1)).toFinset := by
    ext u
    simp only [Set.mem_ofPred_eq, Adj, List.coe_toFinset, List.mem_map, List.mem_filter, decide_eq_true_eq, Prod.exists,
      exists_and_right, exists_eq_right]
    constructor
    · rintro ⟨he, hp⟩
      exact ⟨v, he, rfl, hp⟩
    · rintro ⟨_, he, rfl, hp⟩
      exact ⟨he, hp⟩
  have hnd : ((g.edges.filter fun e => e.2 = v ∧ p e).map (·.1)).Nodup := by
    refine (hg.nodup.filter _).map_on ?_
    intro a ha b hb hab
    simp only [List.mem_filter, decide_eq_true_eq] at ha hb
    exact Prod.ext hab (ha.2.1.trans hb.2.1.symm)
  rw [hset, Set.ncard_coe_finset, List.toFinset_card_of_nodup hnd, List.length_map, List.countP_eq_length_filter]

theorem mem_outgoing {layer : List Nat} {i j : Nat} : (i, j) ∈ g.outgoing layer ↔ i ∈ layer ∧ g.Adj i j := by
  simp only [outgoing, List.mem_flatMap, List.mem_map, mem_dependents, Prod.mk.injEq]
  constructor
  · rintro ⟨k, hk, d, hd, rfl, rfl⟩
    exact ⟨hk, hd⟩
  · rintro ⟨hi, hd⟩
    exact ⟨i, hi, j, hd, rfl, rfl⟩

/-- No edge of a layer leads back to where it starts. -/
theorem IsLayer.outgoing_eq {k : Nat} {l : List Nat} (h : g.IsLayer k l) : g.outgoing l = g.edgesFrom l := by
  refine List.flatMap_congr fun i hi => ?_
  have hself : ∀ d ∈ g.dependents i, d ≠ i := by
    rintro d hd rfl
    exact h.not_adj_self hi (mem_dependents.1 hd)
  rw [List.filter_eq_self.2 fun d hd => decide_eq_true (hself d hd)]

/-- The round that began with `s` has looked at the edges `seen`. -/
structure Midway (g : Graph) (s : Layering) (seen : List (Nat × Nat)) (f : Following) : Prop where
  stage : Stage g s
  ne_nil : ∀ l ∈ s.layers, l ≠ []
  layers : f.layers = s.layers
  current : f.current = s.current
  edges : g.edgesFrom s.current = seen ++ f.ahead
  counted : (f.waiting, f.ready) = seen.foldl countDown (s.waiting, [])

/-- An edge of an earlier layer, or one that the round has looked at. -/
def Met (g : Graph) (s : Layering) (seen : List (Nat × Nat)) (e : Nat × Nat) : Prop :=
  e ∈ g.edges ∧ e.1 ∈ s.layers.flatten ∨ e ∈ seen

variable {s : Layering} {seen : List (Nat × Nat)} {f : Following}

namespace Midway

theorem enter (h : Stage g s) (hne : ∀ l ∈ s.layers, l ≠ []) : Midway g s [] (Following.enter g s) :=
  ⟨h, hne, rfl, rfl, h.current.outgoing_eq.symm, rfl⟩

theorem mem_of_edge (h : Midway g s seen f) {e : Nat × Nat} (he : e ∈ seen ++ f.ahead) :
    e ∈ g.edges ∧ e.1 ∈ s.current ∧ e.2 ≠ e.1 := by
  rw [← h.edges] at he
  obtain ⟨hi, hadj, hne⟩ := mem_edgesFrom.1 he
  exact ⟨hadj, hi, hne⟩

theorem mem_of_ahead (h : Midway g s seen f) {e : Nat × Nat} (he : e ∈ f.ahead) :
    e ∈ g.edges ∧ e.1 ∈ s.current ∧ e.2 ≠ e.1 :=
  h.mem_of_edge (List.mem_append_right seen he)

theorem nodup_edges (hg : g.Proper) (h : Midway g s seen f) : (seen ++ f.ahead).Nodup :=
  h.edges ▸ nodup_edgesFrom hg h.stage.current.nodup

theorem countedDown (hg : g.Proper) (h : Midway g s seen f) : CountedDown seen (s.waiting, []) (f.waiting, f.ready) :=
  h.counted ▸ h.stage.countedDown_of_append hg h.edges

theorem follow (h : Midway g s seen f) {e : Nat × Nat} {ahead : List (Nat × Nat)} (he : f.ahead = e :: ahead) :
    Midway g s (seen ++ [e]) (f.turn g) := by
  have hne : e.2 ≠ e.1 := (h.mem_of_ahead (he ▸ List.mem_cons_self)).2.2
  rw [Following.turn_of_cons he hne]
  refine ⟨h.stage, h.ne_nil, h.layers, h.current, ?_, ?_⟩
  · rw [h.edges, he, List.append_assoc, List.singleton_append]
  · rw [List.foldl_append, ← h.counted]
    rfl

/-- Without an edge ahead the round is over. -/
theorem turn_eq (h : Midway g s seen f) (he : f.ahead = []) (hc : s.current ≠ []) :
    f.turn g = Following.enter g (s.round g) := by
  have hedges : g.edgesFrom s.current = seen := by
    rw [h.edges, he, List.append_nil]
  rw [Following.turn_of_nil he (h.current ▸ hc), h.layers, h.current, Layering.round, hedges, ← h.counted]

/-! ### Counters -/

/-- Of the edges that earlier layers have left over, the round has looked at those it has counted down. -/
theorem unmet_eq_add (hg : g.Proper) (h : Midway g s seen f) (v : Nat) :
    g.unmet s.layers.flatten v =
      into seen v + g.edges.countP fun e => (e.2 = v ∧ e.1 ∉ s.layers.flatten) ∧ e ∉ seen := by
  have hseen : ∀ e ∈ seen, e ∈ g.edges ∧ e.1 ∈ s.current := by
    intro e he
    obtain ⟨hadj, hi, -⟩ := h.mem_of_edge (List.mem_append_left f.ahead he)
    exact ⟨hadj, hi⟩
  have hnd : seen.Nodup := (h.nodup_edges hg).of_append_left
  rw [unmet, countP_edges_eq_add hg hnd (fun e he => (hseen e he).1) (fun e => e.2 = v ∧ e.1 ∉ s.layers.flatten)]
  congr 1
  refine List.countP_congr fun e he => ?_
  have hout := h.stage.not_mem_taken (hseen e he).2
  simp only [hout, not_false_eq_true, and_true]

/-- A counter is the number of edges into its position that have not been looked at. -/
theorem waiting_eq (hg : g.Proper) (h : Midway g s seen f) {v : Nat} (hv : v < g.size) :
    f.waiting[v]? = some {u | g.Adj u v ∧ ¬Met g s seen (u, v)}.ncard := by
  have hset : {u | g.Adj u v ∧ ¬Met g s seen (u, v)} =
      {u | g.Adj u v ∧ u ∉ s.layers.flatten ∧ (u, v) ∉ seen} := by
    ext u
    simp only [Met, Adj, Set.mem_ofPred_eq]
    tauto
  have hcount : f.waiting.getD v 0 = {u | g.Adj u v ∧ ¬Met g s seen (u, v)}.ncard := by
    have hleft : f.waiting.getD v 0 = s.waiting.getD v 0 - into seen v := (h.countedDown hg).left v
    rw [hleft, h.stage.waiting, h.unmet_eq_add hg, Nat.add_sub_cancel_left, hset]
    simp only [and_assoc]
    exact countP_edges_eq_ncard hg v fun e => e.1 ∉ s.layers.flatten ∧ e ∉ seen
  have hlength : f.waiting.length = g.size := (h.countedDown hg).length.trans h.stage.length
  have hlt : v < f.waiting.length := hlength ▸ hv
  rw [← hcount, List.getD_eq_getElem?_getD, List.getElem?_eq_getElem hlt, Option.getD_some]

/-- The edge that is looked at next is one of those that its counter counts. -/
theorem waiting_pos (hg : g.Proper) (h : Midway g s seen f) {e : Nat × Nat} (he : f.ahead.head? = some e) :
    ∃ k, f.waiting[e.2]? = some (k + 1) := by
  have hmem : e ∈ f.ahead := List.mem_of_mem_head? he
  obtain ⟨hadj, hi, -⟩ := h.mem_of_ahead hmem
  have hmet : ¬Met g s seen e := by
    rintro (⟨-, htaken⟩ | hseen)
    · exact h.stage.not_mem_taken hi htaken
    · exact List.disjoint_of_nodup_append (h.nodup_edges hg) hseen hmem
  have hfin : {u | g.Adj u e.2 ∧ ¬Met g s seen (u, e.2)}.Finite :=
    (Set.finite_lt_nat g.size).subset fun u hu => hg.source_lt hu.1
  have hpos : 0 < {u | g.Adj u e.2 ∧ ¬Met g s seen (u, e.2)}.ncard :=
    (Set.ncard_pos hfin).2 ⟨e.1, hadj, hmet⟩
  rw [h.waiting_eq hg (hg.target_lt hadj)]
  exact ⟨_, congrArg some (Nat.succ_pred_eq_of_pos hpos).symm⟩

/-! ### The next layer -/

/-- A position that is ready waits for one of the edges of the round, so it is not in a layer yet. -/
theorem not_mem_of_ready (hg : g.Proper) (h : Midway g s seen f) {v : Nat} (hv : v ∈ f.ready) :
    v ∉ f.layers.flatten ++ f.current := by
  obtain ⟨hpos, hle⟩ := ((h.countedDown hg).mem v |>.1 hv).resolve_left List.not_mem_nil
  rw [h.layers, h.current, h.stage.mem_taken_or_current, below_succ]
  rintro ⟨-, hpred⟩
  -- in a layer it would have all its dependencies in earlier ones, and wait for nothing
  have hzero : g.unmet s.layers.flatten v = 0 := by
    refine unmet_eq_zero_iff.2 fun u hu => ?_
    exact (h.stage.mem_taken u).2 ⟨hg.source_lt hu, hpred u hu⟩
  rw [← h.stage.waiting v] at hzero
  dsimp only at hle
  omega

theorem nodup_positions (hg : g.Proper) (h : Midway g s seen f) :
    (f.layers.flatten ++ f.current ++ f.ready).Nodup := by
  refine List.nodup_append.2 ⟨?_, (h.countedDown hg).nodup, fun a ha b hb hab => ?_⟩
  · rw [h.layers, h.current]
    exact h.stage.nodup_taken_append_current
  · exact h.not_mem_of_ready hg hb (hab ▸ ha)

/-- Between two positions of a layer, the edges met are those from the positions that are done. -/
theorem met_iff_of_outgoing (h : Midway g s seen f) {before todo : List Nat} (hc : f.current = before ++ todo)
    (ha : f.ahead = g.outgoing todo) {u v : Nat} (hu : g.Adj u v) :
    Met g s seen (u, v) ↔ u ∈ f.layers.flatten ++ before := by
  have hseen : seen = g.outgoing before := by
    have hsplit : g.outgoing before ++ g.outgoing todo = seen ++ g.outgoing todo := by
      rw [← ha, ← h.edges, ← h.stage.current.outgoing_eq, ← h.current, hc, ha, outgoing, outgoing, outgoing,
        List.flatMap_append]
    exact (List.append_cancel_right hsplit).symm
  rw [Met, hseen, mem_outgoing, List.mem_append, h.layers]
  exact ⟨Or.imp And.right And.left, Or.imp (⟨hu, ·⟩) (⟨·, hu⟩)⟩

end Midway

/-! ### Turn by turn -/

theorem met_concat {d e : Nat × Nat} :
    Met g s (seen ++ [d]) e ↔ Met g s seen e ∨ d = e := by
  simp only [Met, List.mem_append, List.mem_singleton, or_assoc, eq_comm]

/-- When a round is over, the edges met are those of the layers taken. -/
theorem Midway.met_round (h : Midway g s seen f) (he : f.ahead = []) {e : Nat × Nat} :
    Met g (s.round g) [] e ↔ Met g s seen e := by
  have hseen : e ∈ seen ↔ e ∈ g.edges ∧ e.1 ∈ s.current := by
    have hedges : g.outgoing s.current = seen := by
      rw [h.stage.current.outgoing_eq, h.edges, he, List.append_nil]
    rw [← hedges, mem_outgoing, Adj, and_comm]
  have hlayers : (s.round g).layers.flatten = s.layers.flatten ++ s.current := by
    show (s.layers ++ [s.current]).flatten = s.layers.flatten ++ s.current
    rw [List.flatten_append, List.flatten_singleton]
  rw [Met, Met, hseen, hlayers, List.mem_append]
  simp only [List.not_mem_nil, or_false, and_or_left]

namespace Following

/-- After any number of turns some round has come to one of its edges, and the edges seen are those met. -/
theorem exists_midway (hg : g.Proper) (n : Nat) :
    ∃ s seen, Midway g s seen (after g n) ∧ ∀ e, Seen g n e ↔ Met g s seen e := by
  induction n with
  | zero =>
    refine ⟨Layering.start g, [], Midway.enter (stage_start hg) (by simp [Layering.start]), fun e => ?_⟩
    simp [Seen, Met, Layering.start]
  | succ n ih =>
    obtain ⟨s, seen, h, hmet⟩ := ih
    rw [after_succ]
    -- a turn follows an edge, or ends a round, or comes after the last round
    cases hahead : (after g n).ahead with
    | cons d ahead =>
      refine ⟨s, seen ++ [d], h.follow hahead, fun e => ?_⟩
      rw [seen_succ, hmet, met_concat, hahead, List.head?_cons, Option.some.injEq]
    | nil =>
      have hsame : ∀ e, Seen g (n + 1) e ↔ Seen g n e := by
        intro e
        simp [seen_succ, hahead]
      by_cases hc : s.current = []
      · rw [turn_of_over hahead (h.current.trans hc)]
        exact ⟨s, seen, h, fun e => (hsame e).trans (hmet e)⟩
      · rw [h.turn_eq hahead hc]
        refine ⟨s.round g, [], Midway.enter (h.stage.round hg) (Layering.round_ne_nil h.ne_nil hc), fun e => ?_⟩
        rw [hsame, hmet, h.met_round hahead]

/-- A round ends one turn after its last edge. -/
theorem iterate_eq_round (h : Midway g s seen f) (hc : s.current ≠ []) :
    (turn g)^[f.ahead.length + 1] f = enter g (s.round g) := by
  induction hahead : f.ahead generalizing seen f with
  | nil => exact h.turn_eq hahead hc
  | cons d ahead ih =>
    have hturn : (f.turn g).ahead = ahead := by
      rw [turn_of_cons hahead (h.mem_of_ahead (hahead ▸ List.mem_cons_self)).2.2]
    rw [List.length_cons, Function.iterate_succ_apply]
    exact ih (h.follow hahead) hturn

/-- The turns go through the rounds. -/
theorem exists_iterate_eq_run (hg : g.Proper) (fuel : Nat) (h : Stage g s) (hne : ∀ l ∈ s.layers, l ≠ []) :
    ∃ n, (turn g)^[n] (enter g s) = enter g (Layering.run g fuel s) := by
  induction fuel generalizing s with
  | zero => exact ⟨0, rfl⟩
  | succ fuel ih =>
    rw [Layering.run]
    split
    · exact ⟨0, rfl⟩
    · rename_i hc
      have hc : s.current ≠ [] := fun h => hc (List.isEmpty_iff.2 h)
      obtain ⟨n, hn⟩ := ih (h.round hg) (Layering.round_ne_nil hne hc)
      refine ⟨n + ((enter g s).ahead.length + 1), ?_⟩
      rw [Function.iterate_add_apply, iterate_eq_round (Midway.enter h hne) hc, hn]

/-- The turns end with the layering. -/
theorem exists_after_eq (hg : g.Proper) : ∃ n, ∀ m, n ≤ m → after g m = enter g g.layering := by
  obtain ⟨n, hn⟩ := exists_iterate_eq_run hg g.size (stage_start hg) (by simp [Layering.start])
  refine ⟨n, fun m hm => ?_⟩
  have hover : (enter g g.layering).turn g = enter g g.layering := by
    have hc : (enter g g.layering).current = [] := current_layering hg
    refine turn_of_over ?_ hc
    show g.outgoing (enter g g.layering).current = []
    rw [hc]
    rfl
  obtain ⟨k, rfl⟩ := Nat.exists_eq_add_of_le' hm
  rw [after, Function.iterate_add_apply, hn]
  exact Function.iterate_fixed hover k

/-- What holds after so many turns. -/
structure Accurate (g : Graph) (n : Nat) (f : Following) : Prop where
  /-- A counter is the number of dependencies whose edge to the position has not been seen. -/
  counters : ∀ v < g.size, f.waiting[v]? = some {u | g.Adj u v ∧ ¬Seen g n (u, v)}.ncard
  /-- Between two positions of a layer it is the number of dependencies that are not done. -/
  between : ∀ before todo, f.current = before ++ todo → f.ahead = g.outgoing todo → ∀ v < g.size,
    f.waiting[v]? = some {u | g.Adj u v ∧ u ∉ f.layers.flatten ++ before}.ncard
  /-- The next edge leads to another position, whose counter is not zero. -/
  next : ∀ e, f.ahead.head? = some e → e.2 ≠ e.1 ∧ ∃ k, f.waiting[e.2]? = some (k + 1)
  /-- No position is in two layers, or in one twice. -/
  once : (f.layers.flatten ++ f.current ++ f.ready).Nodup
  rounds : f.layers.length ≤ g.size

theorem accurate_after (hg : g.Proper) (n : Nat) : Accurate g n (after g n) := by
  obtain ⟨s, seen, h, hmet⟩ := exists_midway hg n
  refine ⟨fun v hv => ?_, fun before todo hc ha v hv => ?_, fun e he => ?_, h.nodup_positions hg, ?_⟩
  · simp only [hmet]
    exact h.waiting_eq hg hv
  · have hset : {u | g.Adj u v ∧ u ∉ (after g n).layers.flatten ++ before} =
        {u | g.Adj u v ∧ ¬Met g s seen (u, v)} := by
      ext u
      exact and_congr_right fun hu => not_congr (h.met_iff_of_outgoing hc ha hu).symm
    rw [hset]
    exact h.waiting_eq hg hv
  · exact ⟨(h.mem_of_ahead (List.mem_of_mem_head? he)).2.2, h.waiting_pos hg he⟩
  · rw [h.layers]
    exact h.stage.length_layers_le h.ne_nil

end Following

/-! ### The layering -/

/-- A failure carries the names on cycles, never the names of what is left over. -/
theorem layers_eq (hg : g.Proper) :
    g.layers = if g.layering.taken < g.size then .error g.cycleNames else .ok g.layering.layers := by
  split
  · rename_i h
    exact layers_of_cycle hg ((taken_lt_iff hg).1 h)
  · rename_i h
    exact layers_of_acyclic hg (mt (taken_lt_iff hg).2 h)

open Following

/-- After every turn the counters are exact, none is counted down from zero, no edge leads back and no position is in
two layers.  The turns end with the layering, after at most as many rounds as there are members.  If a position is left
over there are names on cycles, however the strongly connected components are listed, and a failure carries them. -/
theorem layering_accurate (members : List Member) (deps : Dependencies) :
    let g := ofMembers members deps
    (∀ n, Accurate g n (after g n)) ∧
      (∃ n, ∀ m, n ≤ m → after g m = enter g g.layering) ∧
      g.layering.current = [] ∧ g.layering.layers.length ≤ members.length ∧
      (∀ v < members.length, v ∉ g.layering.layers.flatten → g.layering.taken < g.size ∧ g.cycleNames ≠ []) ∧
      (∀ cs : g.Components, g.componentNames cs.parts = g.cycleNames) ∧
      g.layers = if g.layering.taken < g.size then .error g.cycleNames else .ok g.layering.layers := by
  intro g
  have hg : g.Proper := proper_ofMembers members deps
  have hsize : g.size = members.length := size_ofMembers members deps
  refine ⟨accurate_after hg, exists_after_eq hg, current_layering hg, ?_, fun v hv hn => ?_, componentNames_eq hg,
    layers_eq hg⟩
  · rw [← hsize]
    exact (stage_layering hg).length_layers_le (layers_layering_ne_nil hg)
  · have hlt : g.layering.taken < g.size := (taken_lt_iff_exists hg).2 ⟨v, hsize ▸ hv, hn⟩
    exact ⟨hlt, cycleNames_ne_nil hg ((taken_lt_iff hg).1 hlt)⟩

/-- A member that depends on itself, beside a chain of three. -/
theorem layering_accurate_self_edge :
    let members : List Member := [⟨"base", "base", "/ws/base", none, none⟩, ⟨"docs", "docs", "/ws/docs", none, none⟩,
      ⟨"app", "app", "/ws/app", none, none⟩, ⟨"core", "core", "/ws/core", none, none⟩]
    let g := ofMembers members
      (SortedMap.ofList [("app", ["base", "core"]), ("core", ["base"]), ("docs", ["docs", "core"])])
    (1 < g.size ∧ (after g 4).waiting = [0, 2, 0, 0] ∧
        (after g 4).waiting[1]? = some {u | g.Adj u 1 ∧ ¬Seen g 4 (u, 1)}.ncard) ∧
      ((after g 4).ahead.head? = some (3, 1) ∧ 1 ≠ 3 ∧ ∃ k, (after g 4).waiting[1]? = some (k + 1)) ∧
      ((after g 2).current = [0] ++ [] ∧ (after g 2).ahead = g.outgoing [] ∧
        (after g 2).waiting[2]? = some {u | g.Adj u 2 ∧ u ∉ (after g 2).layers.flatten ++ [0]}.ncard) ∧
      (∃ n, n ≤ n ∧ after g n = enter g g.layering) ∧
      (1 < members.length ∧ 1 ∉ g.layering.layers.flatten ∧ g.layering.taken < g.size ∧ g.cycleNames ≠ []) ∧
      ∃ cs : g.Components, g.componentNames cs.parts = g.cycleNames := by
  intro members g
  obtain ⟨haccurate, ⟨n, hend⟩, -, -, hleft, hnames, -⟩ := layering_accurate members
    (SortedMap.ofList [("app", ["base", "core"]), ("core", ["base"]), ("docs", ["docs", "core"])])
  have hsize : 1 < g.size := by decide +kernel
  have hhead : (after g 4).ahead.head? = some (3, 1) := by decide +kernel
  have hcurrent : (after g 2).current = [0] ++ [] := by decide +kernel
  have hahead : (after g 2).ahead = g.outgoing [] := by decide +kernel
  have hout : 1 ∉ g.layering.layers.flatten := by decide +kernel
  have hlength : 1 < members.length := by decide +kernel
  have hwaiting : (after g 4).waiting = [0, 2, 0, 0] := by decide +kernel
  obtain ⟨cs⟩ := nonempty_components (proper_ofMembers members
    (SortedMap.ofList [("app", ["base", "core"]), ("core", ["base"]), ("docs", ["docs", "core"])]))
  exact ⟨⟨hsize, hwaiting, (haccurate 4).counters 1 hsize⟩, ⟨hhead, (haccurate 4).next _ hhead⟩,
    ⟨hcurrent, hahead, (haccurate 2).between _ _ hcurrent hahead 2 (by decide +kernel)⟩,
    ⟨n, le_rfl, hend n le_rfl⟩, ⟨hlength, hout, hleft 1 hlength hout⟩, cs, hnames cs⟩

end ScriptRunner.Graph
