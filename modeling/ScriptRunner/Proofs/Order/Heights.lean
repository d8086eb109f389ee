import Mathlib.Data.Fintype.Card
import Mathlib.Data.Set.Finite.Basic
import Mathlib.Logic.Relation

/-!
# Heights

The height of a node is the number of edges of the longest path that ends at it.  `Below E t i` says that every path to
`i` has fewer than `t` edges; it can be read off the predecessors of `i` (`below_succ`), and a node has height `k` when
it is below `k + 1` and not below `k` (`height_iff`).  A node on a cycle has no height, and a finite set in which every
node has a predecessor contains a cycle (`exists_cycle`).
-/

namespace ScriptRunner

open Relation

variable {α β : Type*} {E : α → α → Prop}

/-- A path of so many edges ends at a node. -/
inductive PathTo (E : α → α → Prop) : Nat → α → Prop
  | start (i : α) : PathTo E 0 i
  | step {k : Nat} {i j : α} (h : PathTo E k i) (e : E i j) : PathTo E (k + 1) j

/-- The longest path that ends at a node has so many edges. -/
def Height (E : α → α → Prop) (k : Nat) (i : α) : Prop := PathTo E k i ∧ ∀ m, PathTo E m i → m ≤ k

/-- Every path that ends at a node has fewer edges. -/
def Below (E : α → α → Prop) (t : Nat) (i : α) : Prop := ∀ k, PathTo E k i → k < t

theorem not_below_zero (i : α) : ¬Below E 0 i := fun h => absurd (h 0 (.start i)) (by omega)

theorem Below.mono {t u : Nat} {i : α} (h : Below E t i) (htu : t ≤ u) : Below E u i :=
  fun k hk => Nat.lt_of_lt_of_le (h k hk) htu

/-- A bound on the paths to a node is one more than a bound on the paths to its predecessors. -/
theorem below_succ {t : Nat} {i : α} : Below E (t + 1) i ↔ ∀ u, E u i → Below E t u := by
  constructor
  · intro h u e k hk
    have := h (k + 1) (hk.step e)
    omega
  · intro h k hk
    cases hk with
    | start => omega
    | step hk e =>
      have := h _ e _ hk
      omega

theorem height_iff {k : Nat} {i : α} : Height E k i ↔ Below E (k + 1) i ∧ ¬Below E k i := by
  constructor
  · rintro ⟨hk, hmax⟩
    exact ⟨fun m hm => Nat.lt_succ_of_le (hmax m hm), fun h => absurd (h k hk) (by omega)⟩
  · rintro ⟨hlt, hn⟩
    obtain ⟨m, hm, hkm⟩ : ∃ m, PathTo E m i ∧ k ≤ m := by
      simpa [Below] using hn
    obtain rfl : m = k := by
      have := hlt m hm
      omega
    exact ⟨hm, fun m' hm' => Nat.le_of_lt_succ (hlt m' hm')⟩

theorem Height.unique {k m : Nat} {i : α} (hk : Height E k i) (hm : Height E m i) : k = m :=
  Nat.le_antisymm (hm.2 k hk.1) (hk.2 m hm.1)

/-- A node whose paths are bounded has a height. -/
theorem below_iff_exists_height {t : Nat} {i : α} : Below E t i ↔ ∃ k < t, Height E k i := by
  constructor
  · intro h
    induction t with
    | zero => exact absurd h (not_below_zero i)
    | succ t ih =>
      by_cases ht : Below E t i
      · obtain ⟨k, hk, hh⟩ := ih ht
        exact ⟨k, by omega, hh⟩
      · exact ⟨t, by omega, height_iff.2 ⟨h, ht⟩⟩
  · rintro ⟨k, hk, hh⟩
    exact (height_iff.1 hh).1.mono hk

/-- An edge leads to a greater height. -/
theorem Height.lt_of_edge {k m : Nat} {i j : α} (hi : Height E k i) (hj : Height E m j) (e : E i j) : k < m :=
  hj.2 (k + 1) (hi.1.step e)

theorem Height.lt_of_transGen {k m : Nat} {i j : α} (hi : Height E k i) (hj : Height E m j)
    (h : TransGen E i j) : k < m := by
  have path : ∀ {k j}, TransGen E i j → PathTo E k i → ∃ m, k < m ∧ PathTo E m j := by
    intro k j h hk
    induction h with
    | single e => exact ⟨k + 1, by omega, hk.step e⟩
    | tail _ e ih =>
      obtain ⟨m, hm, hp⟩ := ih
      exact ⟨m + 1, by omega, hp.step e⟩
  obtain ⟨m', hm', hp⟩ := path h hi.1
  exact Nat.lt_of_lt_of_le hm' (hj.2 m' hp)

/-- A numbering that every edge increases bounds the paths. -/
theorem PathTo.le_of_increasing {f : α → Nat} (hf : ∀ i j, E i j → f i < f j) {k : Nat} {i : α}
    (h : PathTo E k i) : k ≤ f i := by
  induction h with
  | start => omega
  | step _ e ih =>
    have := hf _ _ e
    omega

/-! ### Cycles -/

theorem not_below_of_cycle {i : α} (h : TransGen E i i) (t : Nat) : ¬Below E t i := by
  intro ht
  obtain ⟨k, -, hk⟩ := below_iff_exists_height.1 ht
  exact absurd (hk.lt_of_transGen hk h) (by omega)

/-- A finite set in which every node has a predecessor contains a cycle. -/
theorem exists_cycle {s : Set α} (hs : s.Finite) (hpred : ∀ i ∈ s, ∃ u ∈ s, E u i) {i : α} (hi : i ∈ s) :
    ∃ c ∈ s, TransGen E c c := by
  by_contra hno
  have : Finite s := hs
  let r : s → s → Prop := fun a b => TransGen E a b
  have : IsTrans s r := ⟨fun _ _ _ hab hbc => TransGen.trans hab hbc⟩
  have : Std.Irrefl r := ⟨fun a ha => hno ⟨a, a.2, ha⟩⟩
  have wf : WellFounded r := Finite.wellFounded_of_trans_of_irrefl r
  have none : ∀ a : s, False := fun a => by
    induction a using wf.induction with
    | h a ih =>
      obtain ⟨u, hu, e⟩ := hpred a a.2
      exact ih ⟨u, hu⟩ (.single e)
  exact none ⟨i, hi⟩

/-! ### Two graphs with corresponding nodes -/

/-- Nodes that correspond have the same paths, if each of two corresponding nodes has the predecessors of the other. -/
theorem pathTo_congr {E' : β → β → Prop} {R : α → β → Prop}
    (down : ∀ u i i', R i i' → E u i → ∃ u', R u u' ∧ E' u' i')
    (up : ∀ u' i i', R i i' → E' u' i' → ∃ u, R u u' ∧ E u i) {k : Nat} {i : α} {i' : β} (h : R i i') :
    PathTo E k i ↔ PathTo E' k i' := by
  induction k generalizing i i' with
  | zero => exact ⟨fun _ => .start _, fun _ => .start _⟩
  | succ k ih =>
    constructor
    · intro hp
      cases hp with
      | step hp e =>
        obtain ⟨u', hu, e'⟩ := down _ _ _ h e
        exact ((ih hu).1 hp).step e'
    · intro hp
      cases hp with
      | step hp e =>
        obtain ⟨u, hu, e'⟩ := up _ _ _ h e
        exact ((ih hu).2 hp).step e'

theorem height_congr {E' : β → β → Prop} {R : α → β → Prop}
    (down : ∀ u i i', R i i' → E u i → ∃ u', R u u' ∧ E' u' i')
    (up : ∀ u' i i', R i i' → E' u' i' → ∃ u, R u u' ∧ E u i) {k : Nat} {i : α} {i' : β} (h : R i i') :
    Height E k i ↔ Height E' k i' := by
  have key : ∀ m, PathTo E m i ↔ PathTo E' m i' := fun m => pathTo_congr down up h
  simp only [Height, key]

end ScriptRunner
