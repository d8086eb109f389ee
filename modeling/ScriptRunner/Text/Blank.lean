/-!
# Blanks and trimming

`isBlank` is the Unicode property White_Space.  Trimming removes blanks at the ends of a text; the characters
between the first and the last non-blank are kept as they are (`trim_eq_of_ends`).  What is left is the only text that
neither starts nor ends with a blank and has nothing but blanks around it (`trim_eq_iff`).
-/

namespace ScriptRunner.Text

/-- The characters with the Unicode property White_Space. -/
def isBlank (c : Char) : Bool :=
  let n := c.toNat
  (0x09 ≤ n && n ≤ 0x0d) || n = 0x20 || n = 0x85 || n = 0xa0 || n = 0x1680 || (0x2000 ≤ n && n ≤ 0x200a) ||
    n = 0x2028 || n = 0x2029 || n = 0x202f || n = 0x205f || n = 0x3000

/-- A text without the blanks at its start. -/
def trimStart (s : List Char) : List Char := s.dropWhile isBlank

/-- A text without the blanks at its end. -/
def trimEnd (s : List Char) : List Char := (s.reverse.dropWhile isBlank).reverse

/-- A text without the blanks at either end. -/
def trim (s : List Char) : List Char := trimEnd (trimStart s)

/-- `trim` on strings. -/
def trimmed (s : String) : String := String.ofList (trim s.toList)

/-- `trimEnd` on strings. -/
def trimmedEnd (s : String) : String := String.ofList (trimEnd s.toList)

/-- Nothing but blanks. -/
def isBlankText (s : String) : Bool := s.toList.all isBlank

@[simp] theorem trimStart_nil : trimStart [] = [] := rfl

@[simp] theorem trimEnd_nil : trimEnd [] = [] := rfl

@[simp] theorem trim_nil : trim [] = [] := rfl

theorem trimStart_of_not_blank {c : Char} {s : List Char} (h : isBlank c = false) :
    trimStart (c :: s) = c :: s := by
  simp [trimStart, h]

theorem trimEnd_append_of_not_blank {c : Char} {s : List Char} (h : isBlank c = false) :
    trimEnd (s ++ [c]) = s ++ [c] := by
  simp [trimEnd, h]

/-- A text that neither starts nor ends with a blank is its own trimming. -/
theorem trim_eq_of_ends {s : List Char} (h₁ : ∀ c ∈ s.head?, isBlank c = false)
    (h₂ : ∀ c ∈ s.getLast?, isBlank c = false) : trim s = s := by
  have e : trimStart s = s := by
    cases s with
    | nil => rfl
    | cons c r => exact trimStart_of_not_blank (h₁ c (by simp))
  rw [trim, e]
  rcases List.eq_nil_or_concat s with rfl | ⟨r, c, rfl⟩
  · rfl
  · rw [List.concat_eq_append] at h₂ ⊢
    exact trimEnd_append_of_not_blank (h₂ c (by simp))

/-! ### Blanks around a text -/

/-- A text that neither starts nor ends with a blank. -/
def IsTrimmed (s : List Char) : Prop :=
  (∀ c ∈ s.head?, isBlank c = false) ∧ ∀ c ∈ s.getLast?, isBlank c = false

/-- A text with nothing but blanks before and after it. -/
def Pads (s padded : List Char) : Prop :=
  ∃ before after, padded = before ++ s ++ after ∧ (∀ c ∈ before, isBlank c = true) ∧ ∀ c ∈ after, isBlank c = true

theorem isTrimmed_of_forall {s : List Char} (h : ∀ c ∈ s, isBlank c = false) : IsTrimmed s :=
  ⟨fun c hc => h c (List.mem_of_mem_head? hc), fun c hc => h c (List.mem_of_mem_getLast? hc)⟩

theorem IsTrimmed.trim_eq {s : List Char} (h : IsTrimmed s) : trim s = s := trim_eq_of_ends h.1 h.2

theorem trimStart_append_of_blank {before : List Char} (h : ∀ c ∈ before, isBlank c = true) (s : List Char) :
    trimStart (before ++ s) = trimStart s :=
  List.dropWhile_append_of_pos h

theorem trimEnd_append_of_blank {after : List Char} (h : ∀ c ∈ after, isBlank c = true) (s : List Char) :
    trimEnd (s ++ after) = trimEnd s := by
  rw [trimEnd, trimEnd, List.reverse_append, List.dropWhile_append_of_pos (by simpa using h)]

theorem trimStart_of_blank {s : List Char} (h : ∀ c ∈ s, isBlank c = true) : trimStart s = [] := by
  simpa using trimStart_append_of_blank h []

/-- Blanks around a text do not count. -/
theorem Pads.trim_eq {s padded : List Char} (h : Pads s padded) : trim padded = trim s := by
  obtain ⟨before, after, rfl, hbefore, hafter⟩ := h
  rw [List.append_assoc, trim, trim, trimStart_append_of_blank hbefore, trimStart, List.dropWhile_append]
  split
  · rename_i hnil
    rw [← trimStart, trimStart_of_blank hafter, trimStart, List.isEmpty_iff.1 hnil]
  · exact trimEnd_append_of_blank hafter _

theorem pads_trim (s : List Char) : Pads (trim s) s := by
  refine ⟨s.takeWhile isBlank, ((trimStart s).reverse.takeWhile isBlank).reverse, ?_, ?_, ?_⟩
  · rw [List.append_assoc, trim, trimEnd, ← List.reverse_append, List.takeWhile_append_dropWhile, List.reverse_reverse,
      trimStart, List.takeWhile_append_dropWhile]
  · exact fun c hc => List.all_eq_true.1 List.all_takeWhile c hc
  · exact fun c hc => List.all_eq_true.1 List.all_takeWhile c (List.mem_reverse.1 hc)

/-- What dropping leaves does not start with what is dropped. -/
private theorem not_blank_of_mem_head?_trimStart {s : List Char} : ∀ c ∈ (trimStart s).head?, isBlank c = false := by
  intro c hc
  have h := List.head?_dropWhile_not isBlank s
  rw [← trimStart, hc] at h
  exact h

theorem isTrimmed_trim (s : List Char) : IsTrimmed (trim s) := by
  have hlast : ∀ t, ∀ c ∈ (trimEnd t).getLast?, isBlank c = false := fun t c hc =>
    not_blank_of_mem_head?_trimStart c (by rwa [trimEnd, List.getLast?_reverse] at hc)
  refine ⟨fun c hc => ?_, hlast _⟩
  -- cutting at the end leaves the first character, if it leaves any
  have hpre : trim s <+: trimStart s :=
    List.reverse_suffix.1 (by simpa [trim, trimEnd] using List.dropWhile_suffix isBlank)
  obtain ⟨rest, hrest⟩ := hpre
  refine not_blank_of_mem_head?_trimStart (s := s) c ?_
  rw [← hrest, List.head?_append, hc]
  rfl

instance (s : List Char) : Decidable (IsTrimmed s) :=
  decidable_of_iff (trim s = s) ⟨fun h => h ▸ isTrimmed_trim s, IsTrimmed.trim_eq⟩

/-- Trimming finds the text that neither starts nor ends with a blank, with blanks around it. -/
theorem trim_eq_iff {s t : List Char} : trim s = t ↔ IsTrimmed t ∧ Pads t s := by
  constructor
  · rintro rfl
    exact ⟨isTrimmed_trim s, pads_trim s⟩
  · rintro ⟨ht, hpads⟩
    rw [hpads.trim_eq, ht.trim_eq]

end ScriptRunner.Text
