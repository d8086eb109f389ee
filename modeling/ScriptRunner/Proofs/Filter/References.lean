import Mathlib.Data.List.Basic
import ScriptRunner.Proofs.Planning.Preparation
import ScriptRunner.Session.Run

/-!
# References to named filters

A config is accepted if every filter has a name that is not blank and does not start with the sign `@`.  An expression
loses the blanks at its ends before it is read, names do not: the expression `@` with a name behind it refers to the
name without the blanks at its end (`FilterSpec.value_signed`), and the name alone to the name without the blanks at
either end.  So a filter of an accepted config can be referred to, with the sign or without it, exactly if its name has
no blanks at its ends (`Config.referable_iff`).  The listing of all filters refers to each of them with the sign.
-/

namespace ScriptRunner

/-! ### Trimming -/

namespace Text

theorem trimEnd_cons_of_not_blank {c : Char} {s : List Char} (h : isBlank c = false) :
    trimEnd (c :: s) = c :: trimEnd s := by
  unfold trimEnd
  rw [List.reverse_cons, List.dropWhile_append]
  split
  · rename_i hnil
    rw [List.isEmpty_iff.1 hnil, List.dropWhile_cons_of_neg (by simp [h])]
    rfl
  · simp

theorem trim_cons_of_not_blank {c : Char} {s : List Char} (h : isBlank c = false) : trim (c :: s) = c :: trimEnd s := by
  rw [trim, trimStart_of_not_blank h, trimEnd_cons_of_not_blank h]

theorem length_trimEnd_le (s : List Char) : (trimEnd s).length ≤ s.length := by
  simpa [trimEnd] using (List.dropWhile_sublist isBlank (l := s.reverse)).length_le

theorem length_trim_le (s : List Char) : (trim s).length ≤ s.length :=
  Nat.le_trans (length_trimEnd_le _) (List.dropWhile_sublist isBlank).length_le

theorem trimEnd_eq_of_trim_eq {s : List Char} (h : trim s = s) : trimEnd s = s := by
  have hle : s.length ≤ (trimStart s).length := by
    calc s.length = (trim s).length := by rw [h]
      _ ≤ (trimStart s).length := length_trimEnd_le _
  have hstart : trimStart s = s := (List.dropWhile_suffix isBlank).eq_of_length_le hle
  rwa [trim, hstart] at h

theorem trimmedEnd_eq_of_trimmed_eq {s : String} (h : trimmed s = s) : trimmedEnd s = s := by
  have hchars : trim s.toList = s.toList := by simpa [trimmed] using congrArg String.toList h
  rw [trimmedEnd, trimEnd_eq_of_trim_eq hchars, String.ofList_toList]

end Text

/-! ### Answers -/

/-- A walk that comes to a name met before has started where it started. -/
theorem NamedFilter.head?_of_walk {filters : Filters} {names circle : List String} {met : List NamedFilter}
    {name : String} (h : walk filters names met name = .circular circle) :
    circle.head? = (names ++ [name]).head? := by
  fun_induction walk filters names met name with
  | case1 names met name hmem => rw [← Chain.circular.inj h]
  | case2 | case3 => exact nomatch h
  | case4 names met name hmem f hget next hparent ih =>
    rw [ih h, List.head?_append_of_ne_nil _ (List.append_ne_nil_of_right_ne_nil _ (List.cons_ne_nil _ _))]

namespace FilterSpec

/-- What an expression stands for, without the log entries. -/
def answer (filters : Filters) (expression : String) : Except FilterError FilterSpec :=
  (ofExpression filters (some expression)).value

/-- The answer is about the filter of this name: its patterns, or the circle that the walk from it ends in. -/
def IsAbout (name : String) : Except FilterError FilterSpec → Prop
  | .ok (.named n _) => n = name
  | .error (.circular names) => names.head? = some name
  | _ => False

/-- The filter can be referred to, with the sign or without it. -/
def Referable (filters : Filters) (name : String) : Prop :=
  answer filters name = answer filters ("@" ++ name) ∧ IsAbout name (answer filters name)

variable {filters : Filters} {name name' : String}

theorem IsAbout.unique {a : Except FilterError FilterSpec} (h : IsAbout name a) (h' : IsAbout name' a) :
    name = name' := by
  cases a with
  | ok spec =>
    cases spec with
    | named n ps => exact h.symm.trans h'
    | all | literal => exact h.elim
  | error e =>
    cases e with
    | circular names => exact Option.some.inj (h.symm.trans h')
    | notFound => exact h.elim

/-- A configured filter is a filter with its name, or its walk ends in a circle. -/
theorem isAbout_ofName (filters : Filters) (name : String) : IsAbout name (ofName filters name).value := by
  unfold ofName
  split
  · rfl
  · rename_i names hchain
    exact NamedFilter.head?_of_walk hchain
  · rfl

/-! ### Expressions -/

/-- With the sign, an expression refers to the filter of the name without the blanks at its end. -/
theorem answer_signed (filters : Filters) (name : String) : answer filters ("@" ++ name) =
    if filters.contains (Text.trimmedEnd name) then (ofName filters (Text.trimmedEnd name)).value
    else .error (.notFound (Text.trimmedEnd name)) := by
  have htrim : Text.trim ("@" ++ name).toList = '@' :: Text.trimEnd name.toList := by
    rw [String.toList_append]
    exact Text.trim_cons_of_not_blank (by decide)
  unfold answer ofExpression
  simp only [Option.map_some, Option.getD_some, htrim]
  exact apply_ite Logged.value _ _ _

theorem answer_signed_of_trimmed (h : Text.trimmed name = name) (hmem : filters.contains name) :
    answer filters ("@" ++ name) = (ofName filters name).value := by
  rw [answer_signed, Text.trimmedEnd_eq_of_trimmed_eq h, if_pos hmem]

/-- Without the sign, an expression without blanks at its ends refers to the filter of this name. -/
theorem answer_of_trimmed (h : Text.trimmed name = name) (hblank : Text.isBlankText name = false)
    (hsign : name.toList.head? ≠ some '@') (hmem : filters.contains name) :
    answer filters name = (ofName filters name).value := by
  have htrim : Text.trim name.toList = name.toList := by
    simpa [Text.trimmed] using congrArg String.toList h
  have hofList : String.ofList name.toList = name := String.ofList_toList
  unfold answer ofExpression
  simp only [Option.map_some, Option.getD_some, htrim]
  split
  · rename_i hnil
    simp [Text.isBlankText, hnil] at hblank
  · rename_i hcons
    simp [hcons] at hsign
  · rw [hofList, if_pos hmem]

/-- Without the sign, an expression with blanks at its ends does not refer to the filter of this name. -/
theorem trimmed_of_isAbout (h : IsAbout name (answer filters name)) : Text.trimmed name = name := by
  unfold answer ofExpression at h
  simp only [Option.map_some, Option.getD_some] at h
  split at h
  · exact h.elim
  · rename_i rest htrim
    split at h
    · -- the name would be as long as what stands behind the sign in it
      obtain rfl : String.ofList rest = name := (isAbout_ofName filters (String.ofList rest)).unique h
      have hle := Text.length_trim_le (String.ofList rest).toList
      rw [htrim, String.toList_ofList, List.length_cons] at hle
      omega
    · exact h.elim
  · split at h
    · exact (isAbout_ofName _ _).unique h
    · exact h.elim

/-- A filter can be referred to, with the sign and without it, if and only if its name has no blanks at its ends. -/
theorem referable_iff (hblank : Text.isBlankText name = false) (hsign : name.toList.head? ≠ some '@')
    (hmem : filters.contains name) : Referable filters name ↔ Text.trimmed name = name := by
  refine ⟨fun h => trimmed_of_isAbout h.2, fun h => ?_⟩
  have hbare := answer_of_trimmed h hblank hsign hmem
  refine ⟨?_, hbare ▸ isAbout_ofName filters name⟩
  rw [hbare, answer_signed_of_trimmed h hmem]

/-! ### The listing of all filters -/

/-- The line that shows what an expression for a filter stands for. -/
def line (name : String) (f : NamedFilter) (a : Except FilterError FilterSpec) : String :=
  let shown := match a with
    | .ok spec => ", ".intercalate spec.patterns
    | .error e => "<" ++ e.message ++ ">"
  let description := match f.description with
    | some text => "  # " ++ text
    | none => ""
  name ++ ": " ++ shown ++ description ++ "\n"

theorem value_listing (h : filters.isEmpty = false) : (Filters.listing filters).value =
    String.join (filters.entries.map fun e => line e.1 e.2 (answer filters ("@" ++ e.1))) := by
  unfold Filters.listing
  simp only [h, Bool.false_eq_true, if_false, Logged.value_bind, Logged.value_mapM, Logged.value_pure]
  rfl

end FilterSpec

/-! ### Accepted configs -/

namespace Config

variable {raw : RawConfig} {c : Config}

/-- An accepted config has the filters that are written, and each of them has passed its check. -/
theorem filters_of_ofRaw (h : ofRaw raw = .ok c) :
    c.filters = raw.filters ∧ ∀ e ∈ raw.filters.entries, checkFilter e.1 e.2 = .ok () := by
  obtain ⟨-, hfilters, _, _, -, -, rfl⟩ := ofRaw_eq_ok_iff.1 h
  exact ⟨rfl, except_forM_eq_ok_iff.1 hfilters⟩

theorem name_of_checkFilter {name : String} {f : NamedFilter} (h : checkFilter name f = .ok ()) :
    Text.isBlankText name = false ∧ name.toList.head? ≠ some '@' := by
  unfold checkFilter at h
  split at h
  · exact nomatch h
  · rename_i hblank
    split at h
    · exact nomatch h
    · rename_i hsign
      exact ⟨by simpa using hblank, hsign⟩

/-- Among the filters of an accepted config, those can be referred to, with the sign and without it, whose names have no
blanks at their ends.  With the sign alone, a filter is missing exactly if no filter has its name without the blanks at
the end; this is what the listing shows of it. -/
theorem filters_referable_iff (h : ofRaw raw = .ok c) :
    c.filters = raw.filters ∧
      (∀ name ∈ raw.filters.keys, (FilterSpec.Referable c.filters name ↔ Text.trimmed name = name) ∧
        ∀ missing, FilterSpec.answer c.filters ("@" ++ name) = .error (.notFound missing) ↔
          missing = Text.trimmedEnd name ∧ missing ∉ raw.filters.keys) ∧
      (raw.filters.isEmpty = false → (Filters.listing c.filters).value = String.join (raw.filters.entries.map fun e =>
        FilterSpec.line e.1 e.2 (FilterSpec.answer c.filters ("@" ++ e.1)))) := by
  obtain ⟨heq, hchecked⟩ := filters_of_ofRaw h
  rw [heq]
  refine ⟨rfl, fun name hname => ⟨?_, fun missing => ?_⟩, FilterSpec.value_listing⟩
  · obtain ⟨e, he, rfl⟩ := List.mem_map.1 hname
    obtain ⟨hblank, hsign⟩ := name_of_checkFilter (hchecked e he)
    exact FilterSpec.referable_iff hblank hsign (SortedMap.contains_iff_mem_keys.2 hname)
  · rw [FilterSpec.answer_signed, ← SortedMap.contains_iff_mem_keys]
    split
    · rename_i hmem
      refine ⟨fun h => ?_, fun ⟨h, hmissing⟩ => absurd (h ▸ hmem) hmissing⟩
      exact ((h ▸ FilterSpec.isAbout_ofName raw.filters (Text.trimmedEnd name) :
        FilterSpec.IsAbout _ (.error (.notFound missing)))).elim
    · rename_i hmissing
      simp only [Except.error.injEq, FilterError.notFound.injEq]
      exact ⟨fun h => ⟨h.symm, h ▸ hmissing⟩, fun h => h.1.symm⟩

/-- A name with a comma and a blank inside, and a filter that extends itself. -/
theorem filters_referable_iff_comma :
    let filters : Filters := SortedMap.ofList
      [("a, b", ⟨["x"], some "base", none⟩), ("base", ⟨["y"], none, none⟩), ("self", ⟨["z"], some "self", none⟩)]
    let raw : RawConfig := { filters }
    ∃ c, ofRaw raw = .ok c ∧ FilterSpec.Referable c.filters "a, b" ∧ FilterSpec.Referable c.filters "self" ∧
      (Filters.listing c.filters).value =
        "a, b: y, x\nbase: y\nself: <circular filter inheritance: self -> self>\n" := by
  intro filters raw
  have hok : (ofRaw raw).toOption.isSome := by decide +kernel
  obtain ⟨c, hc⟩ := Option.isSome_iff_exists.1 hok
  have h := except_toOption_eq_some.1 hc
  obtain ⟨heq, hnames, hlisting⟩ := filters_referable_iff h
  have href : ∀ name ∈ filters.keys, Text.trimmed name = name → FilterSpec.Referable c.filters name :=
    fun name hname => (hnames name hname).1.2
  refine ⟨c, h, href _ (by decide +kernel) (by decide +kernel), href _ (by decide +kernel) (by decide +kernel), ?_⟩
  rw [hlisting (by decide +kernel), heq]
  decide +kernel

/-- A name with a blank at its end: the sign refers to no filter, the name alone to a pattern. -/
theorem filters_referable_iff_blank :
    let raw : RawConfig := { filters := SortedMap.ofList [("a ", ⟨["x"], none, none⟩)] }
    ∃ c, ofRaw raw = .ok c ∧ "a " ∈ raw.filters.keys ∧
      FilterSpec.answer c.filters "a " = .ok (.literal ["a"]) ∧
      FilterSpec.answer c.filters "@a " = .error (.notFound "a") ∧
      (Filters.listing c.filters).value = "a : <named filter not found: a>\n" := by
  intro raw
  have hok : (ofRaw raw).toOption.isSome := by decide +kernel
  obtain ⟨c, hc⟩ := Option.isSome_iff_exists.1 hok
  have h := except_toOption_eq_some.1 hc
  refine ⟨c, h, ?_⟩
  rw [(filters_of_ofRaw h).1]
  exact ⟨by decide +kernel, by decide +kernel, by decide +kernel, by decide +kernel⟩

end Config

end ScriptRunner
