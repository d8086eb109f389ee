import Mathlib.Data.List.Basic
import ScriptRunner.Proofs.Filter.References

/-!
# Written pattern lists

A list of patterns is written with commas.  Reading cuts the text at its commas, trims the pieces and leaves out what is
blank, so an entry is neither empty nor does it hold a comma or begin or end with a blank (`Pattern.IsEntry`).  A list
of entries is read from the texts whose pieces stand for it: the entries in their order, with any blanks around them,
and blank pieces anywhere (`Pattern.parseList_eq_iff`).  So writing a list that was read, with a comma or with a comma
and a blank, and reading it again gives the same list; this is what a literal filter shows of itself.
-/

namespace ScriptRunner

namespace Text

private theorem append_intercalate (sep before piece : List Char) (pieces : List (List Char)) :
    before ++ sep.intercalate (piece :: pieces) = sep.intercalate ((before ++ piece) :: pieces) := by
  cases pieces with
  | nil => simp only [List.intercalate_singleton]
  | cons piece' pieces => simp only [List.intercalate_cons_cons, List.append_assoc]

/-- What a separator ends with may be counted to the pieces behind it. -/
theorem intercalate_append (sep before piece : List Char) (pieces : List (List Char)) :
    (sep ++ before).intercalate (piece :: pieces) = sep.intercalate (piece :: pieces.map (before ++ ·)) := by
  induction pieces generalizing piece with
  | nil => rfl
  | cons piece' pieces ih =>
    rw [List.intercalate_cons_cons, ih, List.map_cons, List.intercalate_cons_cons, ← append_intercalate]
    simp only [List.append_assoc]

theorem isBlankText_iff {s : String} : isBlankText s = true ↔ trim s.toList = [] := by
  rw [trim_eq_iff, isBlankText, List.all_eq_true]
  constructor
  · exact fun h => ⟨by simp [IsTrimmed], s.toList, [], by simp, h, by simp⟩
  · rintro ⟨-, before, after, hs, hbefore, hafter⟩ c hc
    rw [hs, List.append_nil, List.mem_append] at hc
    exact hc.elim (hbefore c) (hafter c)

end Text

namespace Pattern

/-- An entry of a list: it is not empty, holds no comma, and neither begins nor ends with a blank. -/
structure IsEntry (p : String) : Prop where
  ne_empty : p ≠ ""
  comma_not_mem : ',' ∉ p.toList
  isTrimmed : Text.IsTrimmed p.toList

/-- Pieces that stand for some entries: each entry in its turn with any blanks around it, and any blank pieces. -/
inductive StandFor : List String → List String → Prop where
  | nil : StandFor [] []
  | blank {piece : String} {pieces ps : List String} (h : Text.isBlankText piece = true) :
      StandFor pieces ps → StandFor (piece :: pieces) ps
  | entry {p piece : String} {pieces ps : List String} (h : Text.Pads p.toList piece.toList) :
      StandFor pieces ps → StandFor (piece :: pieces) (p :: ps)

variable {p piece text : String} {ps pieces : List String}

/-! ### Reading pieces -/

/-- The entries that are read from some pieces. -/
def entriesIn (pieces : List (List Char)) : List String :=
  ((pieces.map Text.trim).filter fun p => !p.isEmpty).map String.ofList

theorem parseList_eq (text : String) : parseList text = entriesIn (Text.splitOn ',' text.toList) := rfl

/-- Pieces that stand for some entries are read as these entries. -/
theorem StandFor.entriesIn_eq (h : StandFor pieces ps) (hps : ∀ p ∈ ps, IsEntry p) :
    entriesIn (pieces.map String.toList) = ps := by
  unfold entriesIn
  induction h with
  | nil => rfl
  | blank hblank _ ih =>
    rw [List.map_cons, List.map_cons, Text.isBlankText_iff.1 hblank, List.filter_cons_of_neg (by simp), ih hps]
  | entry hpads _ ih =>
    rw [List.forall_mem_cons] at hps
    obtain ⟨⟨hne, -, htrimmed⟩, hps⟩ := hps
    rw [List.map_cons, List.map_cons, hpads.trim_eq, htrimmed.trim_eq, List.filter_cons_of_pos (by simpa using hne),
      List.map_cons, ih hps, String.ofList_toList]

/-- All pieces stand for the entries that are read from them. -/
theorem standFor_entriesIn (chars : List (List Char)) : StandFor (chars.map String.ofList) (entriesIn chars) := by
  unfold entriesIn
  induction chars with
  | nil => exact .nil
  | cons piece chars ih =>
    rw [List.map_cons, List.map_cons]
    by_cases hnil : Text.trim piece = []
    · rw [List.filter_cons_of_neg (by simp [hnil])]
      exact .blank (Text.isBlankText_iff.2 (by rwa [String.toList_ofList])) ih
    · rw [List.filter_cons_of_pos (by simp [hnil]), List.map_cons]
      refine .entry ?_ ih
      rw [String.toList_ofList, String.toList_ofList]
      exact Text.pads_trim piece

/-- Pieces that stand for entries hold no commas. -/
theorem StandFor.comma_not_mem (h : StandFor pieces ps) (hps : ∀ p ∈ ps, IsEntry p) :
    ∀ piece ∈ pieces, ',' ∉ piece.toList := by
  induction h with
  | nil => exact nofun
  | blank hblank _ ih =>
    rw [List.forall_mem_cons]
    exact ⟨fun hc => absurd (List.all_eq_true.1 hblank _ hc) (by decide), ih hps⟩
  | entry hpads _ ih =>
    rw [List.forall_mem_cons] at hps ⊢
    obtain ⟨before, after, hpiece, hbefore, hafter⟩ := hpads
    refine ⟨fun hc => ?_, ih hps.2⟩
    rw [hpiece, List.mem_append, List.mem_append] at hc
    rcases hc with (hc | hc) | hc
    · exact absurd (hbefore _ hc) (by decide)
    · exact hps.1.comma_not_mem hc
    · exact absurd (hafter _ hc) (by decide)

/-- Entries are read from the texts whose pieces stand for them. -/
theorem parseList_of_standFor (hps : ∀ p ∈ ps, IsEntry p) (h : StandFor pieces ps) :
    parseList (",".intercalate pieces) = ps := by
  rw [parseList_eq, String.toList_intercalate]
  rcases eq_or_ne pieces [] with rfl | hne
  · cases h
    rfl
  · have hcomma : ∀ p ∈ pieces.map String.toList, ',' ∉ p := by
      simpa only [List.forall_mem_map] using h.comma_not_mem hps
    have hsplit : Text.splitOn ',' ([','].intercalate (pieces.map String.toList)) = pieces.map String.toList :=
      Text.splitOn_intercalate hcomma (by simpa using hne)
    exact (congrArg entriesIn hsplit).trans (h.entriesIn_eq hps)

theorem isEntry_of_mem (h : p ∈ parseList text) : IsEntry p := by
  rw [parseList_eq, entriesIn, List.mem_map] at h
  obtain ⟨chars, hchars, rfl⟩ := h
  rw [List.mem_filter, List.mem_map] at hchars
  obtain ⟨⟨piece, hpiece, rfl⟩, hne⟩ := hchars
  obtain ⟨before, after, hpads, -, -⟩ := Text.pads_trim piece
  refine ⟨by simpa using hne, ?_, by rw [String.toList_ofList]; exact Text.isTrimmed_trim piece⟩
  rw [String.toList_ofList]
  refine fun hc => Text.not_mem_of_mem_splitOn hpiece ?_
  rw [hpads]
  simp [hc]

/-- What a text is read as: entries for which its pieces stand. -/
theorem parseList_eq_iff :
    parseList text = ps ↔ (∀ p ∈ ps, IsEntry p) ∧ ∃ pieces, text = ",".intercalate pieces ∧ StandFor pieces ps := by
  constructor
  · rintro rfl
    refine ⟨fun _ => isEntry_of_mem, (Text.splitOn ',' text.toList).map String.ofList, ?_, standFor_entriesIn _⟩
    rw [← String.toList_inj, String.toList_intercalate, List.map_map]
    simp only [Function.comp_def, String.toList_ofList, List.map_id']
    exact (Text.intercalate_splitOn ',' text.toList).symm
  · rintro ⟨hps, pieces, rfl, h⟩
    exact parseList_of_standFor hps h

/-! ### Written entries -/

/-- Entries stand for themselves, with any blanks around each. -/
theorem standFor_map {f : String → String} (hf : ∀ p, Text.Pads p.toList (f p).toList) (ps : List String) :
    StandFor (ps.map f) ps := by
  induction ps with
  | nil => exact .nil
  | cons p ps ih => exact .entry (hf p) ih

theorem parseList_commas (h : ∀ p ∈ ps, IsEntry p) : parseList (",".intercalate ps) = ps := by
  have hself := standFor_map (f := id) (fun p => ⟨[], [], by simp, nofun, nofun⟩) ps
  rw [List.map_id] at hself
  exact parseList_of_standFor h hself

theorem parseList_shown (h : ∀ p ∈ ps, IsEntry p) : parseList (", ".intercalate ps) = ps := by
  cases ps with
  | nil => rfl
  | cons p ps =>
    have hcommas : ", ".intercalate (p :: ps) = ",".intercalate (p :: ps.map (" " ++ ·)) := by
      rw [← String.toList_inj, String.toList_intercalate, String.toList_intercalate]
      have happend := Text.intercalate_append [','] [' '] p.toList (ps.map String.toList)
      simpa [Function.comp_def] using happend
    have hindented : StandFor (ps.map (" " ++ ·)) ps :=
      standFor_map (fun p => ⟨[' '], [], by simp, List.all_eq_true.1 (by decide), nofun⟩) ps
    rw [hcommas]
    exact parseList_of_standFor h (.entry ⟨[], [], by simp, nofun, nofun⟩ hindented)

end Pattern

namespace FilterSpec

variable {filters : Filters} {expression : Option String} {ps : List String}

/-- A literal filter has the patterns of a written list. -/
theorem exists_parseList (h : (ofExpression filters expression).value = .ok (literal ps)) :
    ∃ text, ps = Pattern.parseList text := by
  have hnamed : ∀ name, (ofName filters name).value ≠ .ok (literal ps) := fun name hname =>
    (hname ▸ isAbout_ofName filters name : IsAbout name (.ok (literal ps))).elim
  unfold ofExpression at h
  split at h
  · exact nomatch h
  · dsimp only at h
    split at h
    · exact absurd h (hnamed _)
    · exact nomatch h
  · dsimp only at h
    split at h
    · exact absurd h (hnamed _)
    · exact ⟨_, (FilterSpec.literal.inj (Except.ok.inj h)).symm⟩

/-- Reading a list of patterns gives entries; a list of entries is read from what is written of it, with a comma or with
a comma and a blank between the entries, and from any pieces that stand for it.  So a list that was read is read again,
and what a literal filter shows between its brackets selects the same names. -/
theorem parseList_normal_form :
    (∀ text, ∀ p ∈ Pattern.parseList text, Pattern.IsEntry p) ∧
      (∀ ps, (∀ p ∈ ps, Pattern.IsEntry p) → Pattern.parseList (",".intercalate ps) = ps ∧
        Pattern.parseList (", ".intercalate ps) = ps ∧
        ∀ pieces, Pattern.StandFor pieces ps → Pattern.parseList (",".intercalate pieces) = ps) ∧
      (∀ text, Pattern.parseList (", ".intercalate (Pattern.parseList text)) = Pattern.parseList text) ∧
      ∀ filters expression ps, (ofExpression filters expression).value = .ok (literal ps) →
        ∃ shown, (literal ps).text = "[" ++ shown ++ "]" ∧ Pattern.parseList shown = ps ∧
          ∀ name, (literal (Pattern.parseList shown)).selects name = (literal ps).selects name := by
  refine ⟨fun _ _ => Pattern.isEntry_of_mem, fun ps hps => ?_, fun text => ?_, fun filters expression ps h => ?_⟩
  · exact ⟨Pattern.parseList_commas hps, Pattern.parseList_shown hps,
      fun pieces h => Pattern.parseList_eq_iff.2 ⟨hps, pieces, rfl, h⟩⟩
  · exact Pattern.parseList_shown fun _ => Pattern.isEntry_of_mem
  · obtain ⟨text, rfl⟩ := exists_parseList h
    have hshown := Pattern.parseList_shown fun p (hp : p ∈ Pattern.parseList text) => Pattern.isEntry_of_mem hp
    exact ⟨_, rfl, hshown, fun name => by rw [hshown]⟩

/-- A list with blank pieces, and with blanks around its entries that are not ASCII. -/
theorem parseList_normal_form_padded :
    let ps := ["pkg-*", "!pkg internal"]
    let pieces := ["\u2003", "pkg-*\t", "", " \u00a0!pkg internal"]
    (∀ p ∈ ps, Pattern.IsEntry p) ∧ Pattern.StandFor pieces ps ∧ Pattern.parseList (",".intercalate pieces) = ps ∧
      (ofExpression ∅ (some " pkg-* ,!pkg internal,, ")).value = .ok (literal ps) ∧
      ∃ shown, (literal ps).text = "[" ++ shown ++ "]" ∧ Pattern.parseList shown = ps := by
  intro ps pieces
  have hps : ∀ p ∈ ps, Pattern.IsEntry p := by
    rw [List.forall_mem_cons, List.forall_mem_singleton]
    exact ⟨⟨by decide, by decide, by decide⟩, ⟨by decide, by decide, by decide⟩⟩
  have hfirst : Text.Pads "pkg-*".toList "pkg-*\t".toList :=
    ⟨[], ['\t'], by decide +kernel, nofun, List.all_eq_true.1 (by decide)⟩
  have hsecond : Text.Pads "!pkg internal".toList " \u00a0!pkg internal".toList :=
    ⟨[' ', '\u00a0'], [], by decide +kernel, List.all_eq_true.1 (by decide), nofun⟩
  have hpieces : Pattern.StandFor pieces ps :=
    .blank (by decide +kernel) (.entry hfirst (.blank (by decide) (.entry hsecond .nil)))
  have hliteral : (ofExpression ∅ (some " pkg-* ,!pkg internal,, ")).value = .ok (literal ps) := by decide +kernel
  obtain ⟨-, hread, -, hshown⟩ := parseList_normal_form
  obtain ⟨shown, htext, hagain, -⟩ := hshown ∅ _ ps hliteral
  exact ⟨hps, hpieces, (hread ps hps).2.2 pieces hpieces, hliteral, shown, htext, hagain⟩

end FilterSpec

end ScriptRunner
