/-!
# Lines

The lines of a text: the pieces that a line feed ends, each without one carriage return at its end, and what stands
behind the last line feed, as it is, unless it is empty.  A text made by ending lines with line feeds, with a rest
behind them, has exactly those lines (`lines_unlines_append`).
-/

namespace ScriptRunner.Text

/-- The pieces of a text between the occurrences of `sep`; never empty. -/
def splitOn (sep : Char) : List Char → List (List Char)
  | [] => [[]]
  | c :: rest =>
    if c = sep then [] :: splitOn sep rest
    else match splitOn sep rest with
      | [] => [[c]]
      | piece :: pieces => (c :: piece) :: pieces

/-- One carriage return less at the end. -/
def dropReturn (line : List Char) : List Char :=
  match line.reverse with
  | '\r' :: rest => rest.reverse
  | _ => line

/-- The lines of a text.  A carriage return is dropped before a line feed only, not at the end of the text. -/
def lines (s : List Char) : List (List Char) :=
  let pieces := splitOn '\n' s
  pieces.dropLast.map dropReturn ++ (pieces.getLast?.filter fun rest => !rest.isEmpty).toList

/-- Every line followed by a line feed. -/
def unlines (ls : List (List Char)) : List Char := ls.flatMap (· ++ ['\n'])

/-- A text occurs in another. -/
def occursIn (part : List Char) : List Char → Bool
  | [] => part.isEmpty
  | c :: rest => part.isPrefixOf (c :: rest) || occursIn part rest

/-- How often a text occurs in another, overlaps included. -/
def occurrences (part : List Char) : List Char → Nat
  | [] => if part.isEmpty then 1 else 0
  | c :: rest => occurrences part rest + if part.isPrefixOf (c :: rest) then 1 else 0

/-- `occursIn` on strings. -/
def contains (part text : String) : Bool := occursIn part.toList text.toList

theorem splitOn_ne_nil (sep : Char) (s : List Char) : splitOn sep s ≠ [] := by
  cases s with
  | nil => simp [splitOn]
  | cons c r =>
    unfold splitOn
    split
    · simp
    · split <;> simp

/-- A piece without the separator, then the separator: that piece comes first. -/
theorem splitOn_append {sep : Char} {p : List Char} (h : sep ∉ p) (r : List Char) :
    splitOn sep (p ++ sep :: r) = p :: splitOn sep r := by
  induction p with
  | nil => simp [splitOn]
  | cons c p ih =>
    have hc : c ≠ sep := fun e => h (by simp [e])
    rw [List.cons_append, splitOn, if_neg hc, ih fun hm => h (by simp [hm])]

theorem splitOn_of_not_mem {sep : Char} {p : List Char} (h : sep ∉ p) : splitOn sep p = [p] := by
  induction p with
  | nil => rfl
  | cons c p ih =>
    have hc : c ≠ sep := fun e => h (by simp [e])
    rw [splitOn, if_neg hc, ih fun hm => h (by simp [hm])]

/-- The pieces on both sides of a separator. -/
theorem splitOn_append_cons (sep : Char) (s r : List Char) :
    splitOn sep (s ++ sep :: r) = splitOn sep s ++ splitOn sep r := by
  induction s with
  | nil => simp [splitOn]
  | cons c s ih =>
    rw [List.cons_append, splitOn, splitOn, ih]
    split
    · rfl
    · cases h : splitOn sep s with
      | nil => exact absurd h (splitOn_ne_nil sep s)
      | cons => rfl

theorem not_mem_of_mem_splitOn {sep : Char} {s p : List Char} (h : p ∈ splitOn sep s) : sep ∉ p := by
  induction s generalizing p with
  | nil => simp_all [splitOn]
  | cons c s ih =>
    unfold splitOn at h
    split at h
    · rcases List.mem_cons.1 h with rfl | h
      · exact List.not_mem_nil
      · exact ih h
    · rename_i hc
      split at h
      · exact absurd ‹_› (splitOn_ne_nil sep s)
      · rename_i piece pieces hs
        rcases List.mem_cons.1 h with rfl | h
        · intro hm
          rcases List.mem_cons.1 hm with rfl | hm
          · exact hc rfl
          · exact ih (hs ▸ List.mem_cons_self) hm
        · exact ih (hs ▸ List.mem_cons_of_mem _ h)

/-- Cutting is what the library calls splitting. -/
theorem splitOn_eq (sep : Char) (s : List Char) : splitOn sep s = s.splitOn sep := by
  induction s with
  | nil => rfl
  | cons c s ih =>
    rw [List.splitOn_eq_splitOnP] at ih ⊢
    rw [List.splitOnP_cons_eq_if_modifyHead, ← ih, splitOn]
    simp only [beq_iff_eq]
    split
    · rfl
    · cases h : splitOn sep s with
      | nil => exact absurd h (splitOn_ne_nil sep s)
      | cons => rfl

/-- Pieces put together, if there are any. -/
theorem splitOn_intercalate {sep : Char} {pieces : List (List Char)} (h : ∀ p ∈ pieces, sep ∉ p) (hne : pieces ≠ []) :
    splitOn sep ([sep].intercalate pieces) = pieces := by
  rw [splitOn_eq, List.splitOn_intercalate sep h hne]

/-- The pieces of a text make it up again. -/
theorem intercalate_splitOn (sep : Char) (s : List Char) : [sep].intercalate (splitOn sep s) = s := by
  rw [splitOn_eq, List.intercalate_splitOn]

theorem splitOn_unlines_append {ls : List (List Char)} (h : ∀ l ∈ ls, '\n' ∉ l) {rest : List Char} (hr : '\n' ∉ rest) :
    splitOn '\n' (unlines ls ++ rest) = ls ++ [rest] := by
  induction ls with
  | nil => exact splitOn_of_not_mem hr
  | cons l ls ih =>
    have e : unlines (l :: ls) ++ rest = l ++ '\n' :: (unlines ls ++ rest) := by simp [unlines]
    rw [e, splitOn_append (h l (by simp)), ih fun m hm => h m (by simp [hm])]
    rfl

theorem splitOn_unlines {ls : List (List Char)} (h : ∀ l ∈ ls, '\n' ∉ l) :
    splitOn '\n' (unlines ls) = ls ++ [[]] := by
  simpa using splitOn_unlines_append h List.not_mem_nil

theorem dropReturn_subset (line : List Char) : dropReturn line ⊆ line := by
  unfold dropReturn
  split
  · rename_i rest hrest
    intro c hc
    rw [← List.mem_reverse, hrest]
    exact List.mem_cons_of_mem _ (List.mem_reverse.1 hc)
  · exact List.Subset.refl _

/-- The lines of a text that ends with a rest without a line feed. -/
theorem lines_unlines_append {ls : List (List Char)} (h : ∀ l ∈ ls, '\n' ∉ l) {rest : List Char} (hr : '\n' ∉ rest) :
    lines (unlines ls ++ rest) = ls.map dropReturn ++ if rest = [] then [] else [rest] := by
  simp only [lines, splitOn_unlines_append h hr, List.dropLast_concat, List.getLast?_concat]
  cases rest <;> simp

example : lines "a\r\n\nb\r".toList = ["a".toList, [], "b\r".toList] := by decide

end ScriptRunner.Text
