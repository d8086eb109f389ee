import ScriptRunner.Text.CaseTable

/-!
# Lower case

Full lower-casing of a text.  Every capital has one partner, but for the dotted capital I, which becomes two
characters, and the capital sigma, whose partner depends on whether it ends a word.  Only the sign for kelvin is no
ASCII character and has an ASCII partner, so for the words without a `k` lower-casing is that of ASCII (`lower_eq_iff`).
-/

namespace ScriptRunner.Text

/-- The partner of a capital that is not ASCII, if it has one. -/
private def partner? (n : Nat) : Option Nat :=
  (lowerRuns.find? fun r => r.1 ≤ n && n ≤ r.2.1 && (n - r.1) % r.2.2.1 == 0).map fun r => r.2.2.2 + (n - r.1)

/-- The lower-case partner of one character, context apart. -/
def lowerChar (c : Char) : Char :=
  if c.toNat < 0x80 then c.toLower else
    match partner? c.toNat with
    | some n => Char.ofNat n
    | none => c

/-- After the characters that case rules look through comes a cased one. -/
private def casedAhead (s : List Char) : Bool :=
  match s.dropWhile fun c => inRanges caseIgnorableRanges c.toNat with
  | c :: _ => inRanges casedRanges c.toNat
  | [] => false

/-- Lower-casing from the middle of a text; `before` is what was read, last character first. -/
private def lowerFrom (before : List Char) : List Char → List Char
  | [] => []
  | c :: rest =>
    let low :=
      if c = 'İ' then ['i', '\u0307']
      else if c = 'Σ' then [if casedAhead before && !casedAhead rest then 'ς' else 'σ']
      else [lowerChar c]
    low ++ lowerFrom (c :: before) rest

/-- The text in lower case. -/
def lower (s : List Char) : List Char := lowerFrom [] s

/-! ### ASCII partners -/

/-- An ASCII character that is the partner of ASCII characters only, unlike that of the sign for kelvin. -/
def IsPlain (c : Char) : Prop := c.toNat < 0x80 ∧ c ≠ 'k'

instance (c : Char) : Decidable (IsPlain c) := inferInstanceAs (Decidable (_ ∧ _))

/-- The runs of capitals that are not ASCII lead to characters that are not ASCII, but for the sign for kelvin. -/
private theorem lowerRuns_not_ascii : ∀ r ∈ lowerRuns, r.2.1 < 0x80 ∨ r = (0x212a, 0x212a, 1, 0x6b) ∨
    0x80 ≤ r.2.2.2 ∧ (r.2.2.2 + (r.2.1 - r.1) < 0xd800 ∨ 0xdfff < r.2.2.2 ∧ r.2.2.2 + (r.2.1 - r.1) < 0x110000) := by
  decide +kernel

private theorem not_isPlain_of_le {c : Char} (h : 0x80 ≤ c.toNat) : ¬IsPlain c := fun hc => Nat.not_lt.2 h hc.1

private theorem not_isPlain_of_partner? {n m : Nat} (h : partner? n = some m) (hn : 0x80 ≤ n) :
    ¬IsPlain (Char.ofNat m) := by
  obtain ⟨r, hr, rfl⟩ := Option.map_eq_some_iff.1 h
  have hin := Array.find?_some hr
  simp only [Bool.and_eq_true, decide_eq_true_eq] at hin
  rcases lowerRuns_not_ascii r (Array.mem_of_find?_eq_some hr) with hlt | rfl | ⟨hge, hvalid⟩
  · omega
  · obtain rfl : n = 0x212a := Nat.le_antisymm hin.1.2 hin.1.1
    exact fun hk => hk.2 rfl
  · have hchar : (r.2.2.2 + (n - r.1)).isValidChar := by
      unfold Nat.isValidChar
      omega
    have htoNat : (Char.ofNat (r.2.2.2 + (n - r.1))).toNat = r.2.2.2 + (n - r.1) := by
      rw [Char.ofNat, dif_pos hchar]
      rfl
    exact not_isPlain_of_le (by omega)

/-- In ASCII, what is no capital is its own partner. -/
theorem toLower_eq_self {c : Char} (h : c.toNat < 0x41 ∨ 0x5a < c.toNat) : c.toLower = c := by
  refine dif_neg fun hcap => ?_
  have hlow : 0x41 ≤ c.toNat := UInt32.le_iff_toNat_le.1 hcap.1
  have hhigh : c.toNat ≤ 0x5a := UInt32.le_iff_toNat_le.1 hcap.2
  omega

/-- In ASCII, lower-casing is that of ASCII; no other character becomes a plain one. -/
theorem lowerChar_eq_iff {c d : Char} (hd : IsPlain d) : lowerChar c = d ↔ c.toLower = d := by
  unfold lowerChar
  split
  · exact Iff.rfl
  · rename_i hc
    have hge := Nat.not_lt.1 hc
    have hself : c.toLower = c := toLower_eq_self (.inr (Nat.lt_of_lt_of_le (by decide) hge))
    have hne : c ≠ d := fun h => not_isPlain_of_le hge (h ▸ hd)
    rw [hself]
    split
    · rename_i n hn
      exact iff_of_false (fun h => not_isPlain_of_partner? hn hge (h ▸ hd)) hne
    · exact iff_of_false hne hne

private theorem lowerFrom_cons_ne_nil {before s : List Char} {c : Char} : lowerFrom before (c :: s) ≠ [] := by
  simp only [lowerFrom]
  split
  · exact nofun
  · split <;> exact nofun

private theorem lowerFrom_cons_eq_cons_iff {before s t : List Char} {c d : Char} (ht : ∀ c ∈ d :: t, IsPlain c) :
    lowerFrom before (c :: s) = d :: t ↔ lowerChar c = d ∧ lowerFrom (c :: before) s = t := by
  rw [List.forall_mem_cons] at ht
  simp only [lowerFrom]
  split
  · subst c
    refine iff_of_false (fun h => ?_) fun h => absurd ht.1 (h.1 ▸ by decide +kernel)
    simp only [List.cons_append, List.cons.injEq] at h
    exact absurd (ht.2 _ (h.2 ▸ List.mem_cons_self)) (by decide)
  · split
    · subst c
      refine iff_of_false (fun h => ?_) fun h => absurd ht.1 (h.1 ▸ by decide +kernel)
      rw [List.singleton_append, List.cons.injEq] at h
      split at h <;> exact absurd (h.1 ▸ ht.1) (by decide)
    · rw [List.singleton_append, List.cons.injEq]

private theorem lowerFrom_eq_iff {before s t : List Char} (ht : ∀ c ∈ t, IsPlain c) :
    lowerFrom before s = t ↔ s.map Char.toLower = t := by
  induction s generalizing before t with
  | nil => rfl
  | cons c s ih =>
    cases t with
    | nil => exact iff_of_false lowerFrom_cons_ne_nil nofun
    | cons d t =>
      rw [lowerFrom_cons_eq_cons_iff ht]
      rw [List.forall_mem_cons] at ht
      rw [lowerChar_eq_iff ht.1, ih ht.2, List.map_cons, List.cons.injEq]

/-- A text of plain characters is the lower-case form of the texts that are equal to it up to ASCII case. -/
theorem lower_eq_iff {s t : List Char} (ht : ∀ c ∈ t, IsPlain c) : lower s = t ↔ s.map Char.toLower = t :=
  lowerFrom_eq_iff ht

end ScriptRunner.Text
