import ScriptRunner.Proofs.Filter.Inheritance

/-!
# Choices of inherited filters

A pattern list selects a name if none of its patterns negates it and one of them affirms it (`Pattern.selects_iff`), or
if it is empty.  Neither the order of the patterns nor how often one stands there counts (`Pattern.selects_congr`), so
what a filter selects is known when the patterns on the way to its last ancestor are known as a set: lists of patterns,
one for each filter on the way, choose what their concatenation selects, in whatever order (`Pattern.selects_flatten_iff`).
-/

namespace ScriptRunner

/-! ### Patterns and lists of patterns -/

namespace Pattern

/-- A pattern with the sign, which matches the name without it. -/
def Negates (pattern name : String) : Prop := ∃ plain, pattern = "!" ++ plain ∧ nameMatches plain name = true

/-- A pattern without the sign, which matches the name. -/
def Affirms (pattern name : String) : Prop := pattern.toList.head? ≠ some '!' ∧ nameMatches pattern name = true

/-- Some lists of patterns choose a name: all of them are empty, or no pattern in any of them negates it and a pattern
in one of them affirms it. -/
def Chosen (lists : List (List String)) (name : String) : Prop :=
  (∀ ps ∈ lists, ps = []) ∨
    (∀ ps ∈ lists, ∀ p ∈ ps, ¬Negates p name) ∧ ∃ ps ∈ lists, ∃ p ∈ ps, Affirms p name

variable {p q name : String} {ps qs : List String} {lists lists' : List (List String)}

theorem negated?_eq_some_iff : negated? p = some q ↔ p = "!" ++ q := by
  have hchars : p = "!" ++ q ↔ p.toList = '!' :: q.toList := by
    rw [← String.toList_inj, String.toList_append]
    rfl
  rw [hchars, negated?]
  split
  · rename_i r h
    rw [h, Option.some.injEq, List.cons.injEq, ← String.toList_inj, String.toList_ofList]
    simp
  · rename_i h
    exact ⟨nofun, fun hp => absurd hp (h _)⟩

theorem negated?_eq_none_iff : negated? p = none ↔ p.toList.head? ≠ some '!' := by
  rw [negated?]
  split
  · rename_i r h
    simp [h]
  · rename_i h
    refine ⟨fun _ hp => ?_, fun _ => rfl⟩
    obtain ⟨r, hr⟩ := List.head?_eq_some_iff.1 hp
    exact h r hr

theorem excludes_iff : excludes ps name = true ↔ ∃ p ∈ ps, Negates p name := by
  simp only [excludes, List.any_eq_true, List.mem_filterMap, negated?_eq_some_iff]
  constructor
  · rintro ⟨q, ⟨p, hp, hq⟩, hm⟩
    exact ⟨p, hp, q, hq, hm⟩
  · rintro ⟨p, hp, q, hq, hm⟩
    exact ⟨q, ⟨p, hp, hq⟩, hm⟩

theorem includes_iff : includes ps name = true ↔ ∃ p ∈ ps, Affirms p name := by
  simp only [includes, List.any_eq_true, List.mem_filter, Option.isNone_iff_eq_none, negated?_eq_none_iff, Affirms,
    and_assoc]

theorem selects_iff :
    selects ps name = true ↔ ps = [] ∨ (∀ p ∈ ps, ¬Negates p name) ∧ ∃ p ∈ ps, Affirms p name := by
  rw [selects_eq_true_iff, includes_iff, ← Bool.not_eq_true, excludes_iff]
  simp only [not_exists, not_and]

/-- Only the set of the patterns counts. -/
theorem selects_congr (h : ∀ p, p ∈ ps ↔ p ∈ qs) : selects ps name = selects qs name := by
  have hnil : ps = [] ↔ qs = [] := by simp only [List.eq_nil_iff_forall_not_mem, h]
  rw [Bool.eq_iff_iff, selects_iff, selects_iff]
  simp only [hnil, h]

theorem selects_flatten_iff : selects lists.flatten name = true ↔ Chosen lists name := by
  have hnil : lists.flatten = [] ↔ ∀ ps ∈ lists, ps = [] := List.flatten_eq_nil_iff
  rw [selects_iff, hnil, Chosen]
  simp only [List.mem_flatten]
  refine or_congr_right (and_congr ⟨fun h ps hps p hp => h p ⟨ps, hps, hp⟩, ?_⟩ ⟨?_, ?_⟩)
  · rintro h p ⟨ps, hps, hp⟩
    exact h ps hps p hp
  · rintro ⟨p, ⟨ps, hps, hp⟩, ha⟩
    exact ⟨ps, hps, p, hp, ha⟩
  · rintro ⟨ps, hps, p, hp, ha⟩
    exact ⟨p, ⟨ps, hps, hp⟩, ha⟩

instance : Decidable (Chosen lists name) := decidable_of_iff _ selects_flatten_iff

/-- Only the set of the patterns in some lists counts. -/
theorem chosen_congr (h : ∀ p, p ∈ lists.flatten ↔ p ∈ lists'.flatten) : Chosen lists name ↔ Chosen lists' name := by
  rw [← selects_flatten_iff, ← selects_flatten_iff, selects_congr h]

/-- A name that is negated anywhere is not chosen. -/
theorem not_chosen_of_negates (hps : ps ∈ lists) (hp : p ∈ ps) (h : Negates p name) : ¬Chosen lists name := by
  rintro (hnil | ⟨hnone, -⟩)
  · rw [hnil ps hps] at hp
    cases hp
  · exact hnone ps hps p hp h

end Pattern

/-! ### Selection by an inherited filter -/

namespace Selection

open NamedFilter

variable {filters : Filters} {name last : String} {met : List String}

private theorem mem_flatten_own {names : List String} {p : String} :
    p ∈ (names.map (ownPatterns filters)).flatten ↔ ∃ n ∈ names, p ∈ ownPatterns filters n := by
  rw [← List.flatMap_def, List.mem_flatMap]

/-- A filter whose walk comes to a last ancestor selects the members that the lists on the way choose. -/
theorem value_filtered_of_root (h : Walk filters name .root met last) (ht : Text.trimmed name = name)
    (members : List Member) :
    (filtered filters (some ("@" ++ name)) members).run.value =
      .ok (members.filter fun m => Pattern.Chosen ((met ++ [last]).map (ownPatterns filters)) m.name) := by
  have hspec : (FilterSpec.ofExpression filters (some ("@" ++ name))).value =
      .ok (.named name ((met ++ [last]).reverse.flatMap (ownPatterns filters))) :=
    (FilterSpec.answer_signed_of_trimmed ht h.contains_of_root).trans (FilterSpec.value_ofName_of_root h)
  have hvalue := Request.value_filtered ⟨some ("@" ++ name), true, none⟩ filters ⟨"", members, ∅⟩
  simp only [Request.filterSpec, hspec, Request.matching] at hvalue
  rw [hvalue]
  refine congrArg Except.ok (List.filter_congr fun m _ => ?_)
  have hmem : ∀ p, p ∈ (met ++ [last]).reverse.flatMap (ownPatterns filters) ↔
      p ∈ ((met ++ [last]).map (ownPatterns filters)).flatten := fun p => by
    simp only [mem_flatten_own, List.mem_flatMap, List.mem_reverse]
  rw [Bool.eq_iff_iff, decide_eq_true_eq, ← Pattern.selects_flatten_iff, ← Pattern.selects_congr hmem]
  rfl

/-- What an inherited filter selects is a matter of the set of the patterns on the way to its last ancestor: the members
whose names these choose, in their order; the same members for every filter with the same set of patterns on its way;
and no member whose name is negated anywhere on the way. -/
theorem filtered_inherited (h : Walk filters name .root met last) (ht : Text.trimmed name = name)
    (members : List Member) :
    (filtered filters (some ("@" ++ name)) members).run.value =
        .ok (members.filter fun m => Pattern.Chosen ((met ++ [last]).map (ownPatterns filters)) m.name) ∧
      (∀ filters' name' met' last', Walk filters' name' .root met' last' → Text.trimmed name' = name' →
        (∀ p, (∃ n ∈ met' ++ [last'], p ∈ ownPatterns filters' n) ↔ ∃ n ∈ met ++ [last], p ∈ ownPatterns filters n) →
        (filtered filters' (some ("@" ++ name')) members).run.value =
          (filtered filters (some ("@" ++ name)) members).run.value) ∧
      ∀ x, (∃ n ∈ met ++ [last], ∃ p ∈ ownPatterns filters n, Pattern.Negates p x) →
        ∀ selected, (filtered filters (some ("@" ++ name)) members).run.value = .ok selected →
          ∀ m ∈ selected, m.name ≠ x := by
  refine ⟨value_filtered_of_root h ht members, fun filters' name' met' last' h' ht' hset => ?_, ?_⟩
  · have hsame : ∀ x, Pattern.Chosen ((met' ++ [last']).map (ownPatterns filters')) x ↔
        Pattern.Chosen ((met ++ [last]).map (ownPatterns filters)) x := fun x =>
      Pattern.chosen_congr fun p => by rw [mem_flatten_own, mem_flatten_own, hset]
    rw [value_filtered_of_root h' ht', value_filtered_of_root h ht]
    simp only [hsame]
  · rintro x ⟨n, hn, p, hp, hneg⟩ selected hsel m hm rfl
    rw [value_filtered_of_root h ht] at hsel
    obtain rfl := Except.ok.inj hsel
    have hchosen := (List.mem_filter.1 hm).2
    exact Pattern.not_chosen_of_negates (List.mem_map_of_mem hn) hp hneg (of_decide_eq_true hchosen)

/-- A name that the last ancestor negates and the filter affirms, and the same patterns in one filter. -/
theorem filtered_inherited_negated :
    let filters : Filters := SortedMap.ofList
      [("leaf", ⟨["pkg-secret", "tool"], some "mid", none⟩), ("mid", ⟨[], some "base", none⟩),
        ("base", ⟨["pkg-*", "!pkg-secret"], none, none⟩)]
    let filters' : Filters := SortedMap.ofList
      [("flat", ⟨["tool", "!pkg-secret", "pkg-secret", "tool", "pkg-*"], none, none⟩)]
    let api : Member := ⟨"pkg-api", "api", "/ws/api", none, none⟩
    let secret : Member := ⟨"pkg-secret", "secret", "/ws/secret", none, none⟩
    let tool : Member := ⟨"tool", "tool", "/ws/tool", none, none⟩
    let docs : Member := ⟨"docs", "docs", "/ws/docs", none, none⟩
    Walk filters "leaf" .root ["leaf", "mid"] "base" ∧ Text.trimmed "leaf" = "leaf" ∧
      (filtered filters (some "@leaf") [tool, secret, docs, api]).run.value = .ok [tool, api] ∧
      (filtered filters' (some "@flat") [tool, secret, docs, api]).run.value = .ok [tool, api] := by
  intro filters filters' api secret tool docs
  have hwalk : Walk filters "leaf" .root ["leaf", "mid"] "base" :=
    ⟨.link (by decide +kernel) (.link (by decide +kernel) (.start _)), _, rfl, rfl⟩
  have hflat : Walk filters' "flat" .root [] "flat" := ⟨.start _, _, rfl, rfl⟩
  have ht : Text.trimmed "leaf" = "leaf" := by decide +kernel
  obtain ⟨hvalue, hsame, -⟩ := filtered_inherited hwalk ht [tool, secret, docs, api]
  have hleaf : (filtered filters (some "@leaf") [tool, secret, docs, api]).run.value = .ok [tool, api] :=
    hvalue.trans (congrArg Except.ok (by decide +kernel))
  refine ⟨hwalk, ht, hleaf, (hsame filters' "flat" [] "flat" hflat (by decide +kernel) fun p => ?_).trans hleaf⟩
  have hown : ownPatterns filters' "flat" = ["tool", "!pkg-secret", "pkg-secret", "tool", "pkg-*"] ∧
      ownPatterns filters "leaf" = ["pkg-secret", "tool"] ∧ ownPatterns filters "mid" = [] ∧
      ownPatterns filters "base" = ["pkg-*", "!pkg-secret"] := by decide +kernel
  simp only [List.nil_append, List.cons_append, List.mem_cons, List.not_mem_nil, or_false, exists_eq_or_imp,
    exists_eq_left, hown]
  tauto

end Selection

end ScriptRunner
