import Mathlib.Algebra.Ring.Parity
import Mathlib.Data.List.DropRight
import ScriptRunner.Glob.Parser

/-!
# Which texts are globs

What makes a text no glob depends on the text alone and on how many groups of braces are open (`fault?`): the tokens
read so far and the character before say what a text means, not whether it is one (`Reader.read_eq_error_iff`).

A slash at the end of a glob can be cut off unless it is escaped, that is, unless an odd number of backslashes stands
before it (`fault?_append_slash`).  A class of characters that is open at the end would have no bracket, so that the
last backslashes of a glob always stand outside of classes, two and two.
-/

namespace ScriptRunner.Glob

variable {depth : Nat} {first inRange : Bool} {ranges : List (Char × Char)} {s t more : List Char} {c : Char}
  {out : List (Char × Char) × List Char} {r : Reader} {f : Fault}

/-- The members of a class, whose bracket has been opened. -/
def classText (s : List Char) : List Char := if s.head? = some '!' || s.head? = some '^' then s.drop 1 else s

theorem length_classText_le (s : List Char) : (classText s).length ≤ s.length := by
  unfold classText
  split
  · simp
  · exact Nat.le_refl _

/-- What makes a text no glob, if it follows on `depth` groups of braces that are open. -/
def fault? (depth : Nat) : List Char → Option Fault
  | [] => if depth = 0 then none else some .unclosedAlternatives
  | '[' :: rest =>
    match h : classBody true false [] (classText rest) with
    | .error f => some f
    | .ok (_, more) =>
      have := Nat.lt_of_lt_of_le (classBody_length h) (length_classText_le rest)
      fault? depth more
  | '\x7b' :: rest => fault? (depth + 1) rest
  | '\x7d' :: rest => if depth = 0 then some .unopenedAlternatives else fault? (depth - 1) rest
  | '\\' :: [] => some .danglingEscape
  | '\\' :: _ :: rest => fault? depth rest
  | _ :: rest => fault? depth rest
termination_by s => s.length
decreasing_by all_goals simp_all <;> omega

/-! ### The reader -/

theorem fault?_of_plain (h : c ≠ '[' ∧ c ≠ '\x7b' ∧ c ≠ '\x7d' ∧ c ≠ '\\') :
    fault? depth (c :: s) = fault? depth s := by
  obtain ⟨h₁, h₂, h₃, h₄⟩ := h
  rw [fault?] <;> simp_all

theorem Reader.groups_stars (r : Reader) (rest : List Char) : (r.stars rest).1.groups = r.groups := by
  have hdirs : ∀ t, (r.pushDirs t).groups = r.groups := by
    intro t
    unfold Reader.pushDirs
    split <;> rfl
  unfold Reader.stars
  split
  · split <;> rfl
  · split
    · split
      · exact hdirs _
      · exact hdirs _
      · split
        · exact hdirs _
        · rfl
    · rfl

/-- Two stars may take a slash with them, which makes no difference to what is wrong with the rest. -/
theorem fault?_stars (r : Reader) (rest : List Char) : fault? depth (r.stars rest).2 = fault? depth rest := by
  have hslash : ∀ s, fault? depth ('/' :: s) = fault? depth s := fun s => fault?_of_plain (by decide)
  unfold Reader.stars
  split
  · split
    · rfl
    · exact (hslash _).symm
    · rfl
  · split
    · split
      · rfl
      · exact (hslash _).symm
      · split <;> rfl
    · rfl

theorem fault?_class : fault? depth ('[' :: s) = match classBody true false [] (classText s) with
    | .error f => some f
    | .ok (_, more) => fault? depth more := by
  rw [fault?]
  split <;> simp_all

theorem ne_backslash (hlast : c = '\\' → s = [] → False) (hescape : ∀ d t, c = '\\' → s = d :: t → False) :
    c ≠ '\\' := by
  rintro rfl
  cases s with
  | nil => exact hlast rfl rfl
  | cons d t => exact hescape d t rfl rfl

/-- The reader reports what is wrong with a text, whatever it has read before. -/
theorem Reader.read_eq_error_iff : r.read s = .error f ↔ fault? r.groups.length s = some f := by
  -- both cut the text at the same places, except that two stars may be read with their slash
  fun_induction Reader.read r s with
  | case1 r h => simp_all [fault?]
  | case2 r h => simp_all [fault?]
  | case3 r rest ih =>
    rw [ih, fault?_of_plain (by decide)]
    rfl
  | case4 r rest _ ih =>
    rw [ih, fault?_of_plain (by decide), fault?_of_plain (by decide), Reader.groups_stars, fault?_stars]
  | case5 r rest _ ih =>
    rw [ih, fault?_of_plain (by decide)]
    rfl
  | case6 r rest negated body _ e he =>
    have hclass : classBody true false [] (classText rest) = .error e := by
      simpa [classText, body, negated] using he
    simp [fault?_class, hclass]
  | case7 r rest negated body _ ranges more hc _ ih =>
    have hclass : classBody true false [] (classText rest) = .ok (ranges, more) := by
      simpa [classText, body, negated] using hc
    rw [ih, fault?_class, hclass]
    rfl
  | case8 r rest ih =>
    rw [ih, fault?]
    rfl
  | case9 r rest e he =>
    cases hg : r.groups with
    | nil => simp_all [Reader.close, fault?]
    | cons g outer => simp [Reader.close, hg] at he
  | case10 r rest r' hr' ih =>
    cases hg : r.groups with
    | nil => simp [Reader.close, hg] at hr'
    | cons g outer =>
      have hlength : r'.groups = outer := by
        simp only [Reader.close, hg, Except.ok.injEq] at hr'
        exact hr' ▸ rfl
      rw [ih, fault?]
      simp [hlength]
  | case11 r rest ih =>
    have hlength : r.comma.groups.length = r.groups.length := by
      unfold Reader.comma
      split <;> simp_all [Reader.push]
    rw [ih, fault?_of_plain (by decide)]
    exact iff_of_eq (congrArg (fault? · rest = some f) hlength)
  | case12 r => simp [fault?]
  | case13 r c rest ih =>
    rw [ih, fault?]
    rfl
  | case14 r c rest _ _ _ hclass hopen hclose _ hlast hescape ih =>
    rw [ih, fault?_of_plain ⟨hclass, hopen, hclose, ne_backslash hlast hescape⟩]
    rfl

/-! ### Slashes at the end -/

/-- The text ends in a backslash that no backslash before it escapes. -/
def EndsInEscape (s : List Char) : Prop := Odd (s.rtakeWhile (· = '\\')).length

instance (s : List Char) : Decidable (EndsInEscape s) := inferInstanceAs (Decidable (Odd _))

theorem not_endsInEscape_nil : ¬ EndsInEscape [] := by decide

theorem endsInEscape_concat_backslash : EndsInEscape (s ++ ['\\']) ↔ ¬ EndsInEscape s := by
  rw [EndsInEscape, List.rtakeWhile_concat_pos _ _ _ (by simp), List.length_append, List.length_singleton,
    Nat.odd_add_one, EndsInEscape]

theorem not_endsInEscape_concat (h : c ≠ '\\') : ¬ EndsInEscape (s ++ [c]) := by
  rw [EndsInEscape, List.rtakeWhile_concat_neg _ _ _ (by simpa using h)]
  decide

/-- What stands before a character other than a backslash escapes nothing behind it. -/
theorem endsInEscape_append_cons (h : c ≠ '\\') : EndsInEscape (s ++ c :: t) ↔ EndsInEscape t := by
  induction t using List.reverseRecOn with
  | nil => simp [not_endsInEscape_concat h, not_endsInEscape_nil]
  | append_singleton t d ih =>
    rw [← List.cons_append, ← List.append_assoc]
    by_cases hd : d = '\\'
    · rw [hd, endsInEscape_concat_backslash, endsInEscape_concat_backslash, ih]
    · exact iff_of_false (not_endsInEscape_concat hd) (not_endsInEscape_concat hd)

/-- A backslash takes the character behind it with it. -/
theorem endsInEscape_backslash_cons : EndsInEscape ('\\' :: c :: t) ↔ EndsInEscape t := by
  by_cases hc : c = '\\'
  · subst hc
    induction t using List.reverseRecOn with
    | nil => decide
    | append_singleton t d ih =>
      rw [← List.cons_append, ← List.cons_append]
      by_cases hd : d = '\\'
      · rw [hd, endsInEscape_concat_backslash, endsInEscape_concat_backslash, ih]
      · exact iff_of_false (not_endsInEscape_concat hd) (not_endsInEscape_concat hd)
  · exact endsInEscape_append_cons (s := ['\\']) hc

/-- A class ends at a bracket. -/
theorem exists_of_classBody (h : classBody first inRange ranges s = .ok out) : ∃ pre, s = pre ++ ']' :: out.2 := by
  induction s generalizing first inRange ranges with
  | nil => exact nomatch h
  | cons c s ih =>
    -- wherever the bracket is, one more character stands before it
    have hcons : (∃ pre, s = pre ++ ']' :: out.2) → ∃ pre, c :: s = pre ++ ']' :: out.2 :=
      fun ⟨pre, hpre⟩ => ⟨c :: pre, congrArg (c :: ·) hpre⟩
    unfold classBody at h
    split at h
    · rename_i hc
      cases h
      exact ⟨[], by simp_all⟩
    · split at h
      · exact hcons (ih h)
      · split at h
        · cases he : extendRange c ranges with
          | error e => rw [he] at h; cases h
          | ok rs => rw [he] at h; exact hcons (ih h)
        · exact hcons (ih h)

/-- A slash behind a class is not of it. -/
theorem classBody_append_slash (h : classBody first inRange ranges (s ++ ['/']) = .ok out) :
    ∃ more, out.2 = more ++ ['/'] ∧ classBody first inRange ranges s = .ok (out.1, more) := by
  induction s generalizing first inRange ranges with
  | nil =>
    simp only [List.nil_append, classBody] at h
    cases inRange with
    | false => simp at h
    | true => cases he : extendRange '/' ranges <;> simp [he, bind, Except.bind] at h
  | cons c s ih =>
    rw [List.cons_append] at h
    unfold classBody at h ⊢
    split
    · rename_i hc
      rw [if_pos hc] at h
      cases h
      exact ⟨s, rfl, rfl⟩
    · rename_i hc
      rw [if_neg hc] at h
      split
      · rename_i hdash
        rw [if_pos hdash] at h
        exact ih h
      · rename_i hdash
        rw [if_neg hdash] at h
        split
        · rename_i hrange
          rw [if_pos hrange] at h
          cases he : extendRange c ranges with
          | error e => rw [he] at h; cases h
          | ok rs => rw [he] at h; exact ih h
        · rename_i hrange
          rw [if_neg hrange] at h
          exact ih h

theorem exists_append_classText (s : List Char) : ∃ pre, s = pre ++ classText s := by
  unfold classText
  split
  · exact ⟨s.take 1, (List.take_append_drop 1 s).symm⟩
  · exact ⟨[], rfl⟩

theorem classText_append_slash (s : List Char) : classText (s ++ ['/']) = classText s ++ ['/'] := by
  unfold classText
  cases s with
  | nil => rfl
  | cons c s => split <;> simp_all

/-- Behind a class, the bracket that ends it keeps the backslashes of its members apart. -/
theorem endsInEscape_class (h : classBody true false [] (classText s) = .ok out) :
    EndsInEscape ('[' :: s) ↔ EndsInEscape out.2 := by
  obtain ⟨pre, hpre⟩ := exists_append_classText s
  obtain ⟨members, hmembers⟩ := exists_of_classBody h
  have hs : '[' :: s = ('[' :: pre ++ members) ++ ']' :: out.2 := by
    rw [hpre, hmembers]
    simp
  rw [hs]
  exact endsInEscape_append_cons (by decide)

theorem endsInEscape_cons (h : c ≠ '\\') : EndsInEscape (c :: t) ↔ EndsInEscape t :=
  endsInEscape_append_cons (s := []) h

/-- If a text is a glob, it is one without a slash at its end too, unless the slash was escaped. -/
theorem fault?_append_slash (h : fault? depth (s ++ ['/']) = none) :
    fault? depth s = if EndsInEscape s then some .danglingEscape else none := by
  -- the slash is read last and on its own, unless a backslash is left for it (case8)
  fun_induction fault? depth s with
  | case1 => rw [if_neg not_endsInEscape_nil]
  | case2 depth hdepth =>
    rw [List.nil_append, fault?_of_plain (by decide), fault?, if_neg hdepth] at h
    exact nomatch h
  | case3 depth rest f hbody =>
    rw [List.cons_append, fault?_class, classText_append_slash] at h
    split at h
    · exact nomatch h
    · rename_i hslash
      obtain ⟨_, -, hok⟩ := classBody_append_slash hslash
      exact nomatch hbody.symm.trans hok
  | case4 depth rest ranges more hbody _ ih =>
    rw [List.cons_append, fault?_class, classText_append_slash] at h
    split at h
    · exact nomatch h
    · rename_i hslash
      obtain ⟨more', hmore, hok⟩ := classBody_append_slash hslash
      obtain ⟨-, rfl⟩ := Prod.mk.inj (Except.ok.inj (hbody.symm.trans hok))
      rw [ih (hmore ▸ h)]
      exact if_congr (endsInEscape_class hbody).symm rfl rfl
  | case5 depth rest ih =>
    rw [List.cons_append, fault?] at h
    rw [ih h]
    exact if_congr (endsInEscape_cons (by decide)).symm rfl rfl
  | case6 rest =>
    rw [List.cons_append, fault?, if_pos rfl] at h
    exact nomatch h
  | case7 depth rest hdepth ih =>
    rw [List.cons_append, fault?, if_neg hdepth] at h
    rw [ih h]
    exact if_congr (endsInEscape_cons (by decide)).symm rfl rfl
  | case8 => rw [if_pos (by decide)]
  | case9 depth c rest ih =>
    rw [List.cons_append, List.cons_append, fault?] at h
    rw [ih h]
    exact if_congr endsInEscape_backslash_cons.symm rfl rfl
  | case10 depth c rest hclass hopen hclose hlast hescape ih =>
    have hc := ne_backslash hlast hescape
    rw [List.cons_append, fault?_of_plain ⟨hclass, hopen, hclose, hc⟩] at h
    rw [ih h]
    exact if_congr (endsInEscape_cons hc).symm rfl rfl

theorem not_endsInEscape_of_fault? (h : fault? depth s = none) : ¬ EndsInEscape s := by
  fun_induction fault? depth s with
  | case1 => exact not_endsInEscape_nil
  | case4 depth rest ranges more hbody _ ih => exact fun he => ih h ((endsInEscape_class hbody).1 he)
  | case5 depth rest ih => exact fun he => ih h ((endsInEscape_cons (by decide)).1 he)
  | case7 depth rest _ ih => exact fun he => ih h ((endsInEscape_cons (by decide)).1 he)
  | case9 depth c rest ih => exact fun he => ih h (endsInEscape_backslash_cons.1 he)
  | case10 depth c rest _ _ _ hlast hescape ih =>
    exact fun he => ih h ((endsInEscape_cons (ne_backslash hlast hescape)).1 he)
  | _ => exact nomatch h

theorem EndsInEscape.rdropWhile_slash (h : EndsInEscape s) : s.rdropWhile (· = '/') = s := by
  induction s using List.reverseRecOn with
  | nil => rfl
  | append_singleton s c _ =>
    have hc : c = '\\' := by_contra fun hc => not_endsInEscape_concat hc h
    exact List.rdropWhile_concat_neg _ _ _ (by simp [hc])

/-- Without the slashes at its end a glob is one still, unless it ends in an escape then. -/
theorem fault?_rdropWhile_slash (h : fault? depth s = none) : fault? depth (s.rdropWhile (· = '/')) =
    if EndsInEscape (s.rdropWhile (· = '/')) then some .danglingEscape else none := by
  induction s using List.reverseRecOn with
  | nil => exact h.trans (if_neg not_endsInEscape_nil).symm
  | append_singleton s c ih =>
    by_cases hc : c = '/'
    · subst hc
      rw [List.rdropWhile_concat_pos _ _ _ (by simp)]
      have hcut := fault?_append_slash h
      by_cases he : EndsInEscape s
      · -- the escaped slash was the last one that is cut
        rwa [he.rdropWhile_slash]
      · exact ih (hcut.trans (if_neg he))
    · rw [List.rdropWhile_concat_neg _ _ _ (by simpa using hc), h, if_neg (not_endsInEscape_of_fault? h)]

/-! ### Globs -/

theorem parse_eq_error_iff {text : String} {withinSegment : Bool} {e : Error} :
    parse text withinSegment = .error e ↔ e.glob = text ∧ fault? 0 text.toList = some e.fault := by
  rw [show fault? 0 text.toList = some e.fault ↔ _ from Reader.read_eq_error_iff (r := ⟨[], [], none⟩).symm]
  unfold parse
  cases Reader.read ⟨[], [], none⟩ text.toList with
  | ok tokens => simp
  | error f =>
    obtain ⟨glob, fault⟩ := e
    simp [eq_comm]

/-- Whether a text is a glob does not depend on what its stars match. -/
theorem exists_parse_iff (text : String) (withinSegment : Bool) :
    (∃ g, parse text withinSegment = .ok g) ↔ fault? 0 text.toList = none := by
  cases hparse : parse text withinSegment with
  | ok g =>
    refine iff_of_true ⟨g, rfl⟩ (Option.eq_none_iff_forall_ne_some.2 fun f hf => ?_)
    exact nomatch hparse.symm.trans (parse_eq_error_iff (e := ⟨text, f⟩).2 ⟨rfl, hf⟩)
  | error e => simp [(parse_eq_error_iff.1 hparse).2]

end ScriptRunner.Glob
