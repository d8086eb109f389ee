/-!
# What remains of a list

A search that marks what it has met ends because less and less of a fixed list remains unmarked:
`length_remaining_lt` says that one more mark on a member makes the rest shorter.
-/

namespace ScriptRunner

/-- The members of `xs` that are not marked. -/
def remaining [BEq α] (xs marked : List α) : List α := xs.filter fun x => !marked.contains x

/-- A stronger condition keeps fewer members, if some member tells the two apart. -/
theorem length_filter_lt {p q : α → Bool} {xs : List α} {a : α} (imp : ∀ x, q x = true → p x = true) (h : a ∈ xs)
    (hp : p a = true) (hq : q a = false) : (xs.filter q).length < (xs.filter p).length := by
  induction xs with
  | nil => cases h
  | cons x xs ih =>
    have mono : (xs.filter q).length ≤ (xs.filter p).length := by
      simpa only [← List.countP_eq_length_filter] using List.countP_mono_left fun x _ => imp x
    rcases List.mem_cons.1 h with rfl | h
    · simp only [List.filter_cons, hp, hq, if_true, List.length_cons]
      simpa using Nat.lt_succ_of_le mono
    · have := ih h
      cases hx : q x with
      | true => simpa [hx, imp x hx] using this
      | false =>
        cases hy : p x with
        | true => simpa [hx, hy] using Nat.lt_succ_of_lt this
        | false => simpa [hx, hy] using this

/-- One more mark on a member makes the rest shorter. -/
theorem length_remaining_lt [BEq α] [LawfulBEq α] {xs marked more : List α} {a : α} (sub : marked ⊆ more)
    (h : a ∈ xs) (hn : a ∉ marked) (hm : a ∈ more) : (remaining xs more).length < (remaining xs marked).length := by
  refine length_filter_lt (fun x hx => ?_) h (by simpa using hn) (by simpa using hm)
  simp only [Bool.not_eq_true', List.contains_eq_mem, decide_eq_false_iff_not] at hx ⊢
  exact fun hx' => hx (sub hx')

end ScriptRunner
