import Mathlib.Data.List.Basic
import ScriptRunner.Proofs.Exec.Interruption

/-!
# The lines of a console report

What a console report writes is lines, each ended by a line feed (`Text.MadeOf`).  The output of a script is cut at its
line feeds before it is indented, so that nothing of it reaches the start of a line (`Console.madeOf_below`): below the
status of a result stand the indented lines of its output, and no other.  If the names and the texts of failures have
no line feeds either, every status is one line, and the first characters of the lines tell what kind of line each is.
Counting the marks in the report of a pass then gives its summary (`Pass.report_unforgeable`).
-/

namespace ScriptRunner

namespace Text

/-- A text is made of these lines, each with a line feed at its end. -/
structure MadeOf (ls : List (List Char)) (text : String) : Prop where
  toList_eq : text.toList = unlines ls
  feed_not_mem : ∀ l ∈ ls, '\n' ∉ l

variable {ls ls' : List (List Char)} {s t : String} {c : Char}

/-- The lines of a text are what its line feeds cut it into. -/
theorem MadeOf.splitOn_eq (h : MadeOf ls s) : splitOn '\n' s.toList = ls ++ [[]] := by
  rw [h.toList_eq, splitOn_unlines h.feed_not_mem]

theorem MadeOf.append (h : MadeOf ls s) (h' : MadeOf ls' t) : MadeOf (ls ++ ls') (s ++ t) := by
  refine ⟨?_, fun l hl => (List.mem_append.1 hl).elim (h.feed_not_mem l) (h'.feed_not_mem l)⟩
  rw [String.toList_append, h.toList_eq, h'.toList_eq, unlines, unlines, unlines, List.flatMap_append]

theorem madeOf_line (h : '\n' ∉ s.toList) : MadeOf [s.toList] (s ++ "\n") := by
  refine ⟨?_, fun l hl => List.mem_singleton.1 hl ▸ h⟩
  simp [unlines]

theorem madeOf_join {α : Type*} {f : α → List (List Char)} {g : α → String} {as : List α}
    (h : ∀ a ∈ as, MadeOf (f a) (g a)) : MadeOf (as.flatMap f) (String.join (as.map g)) := by
  induction as with
  | nil => exact ⟨rfl, by simp⟩
  | cons a as ih =>
    rw [List.flatMap_cons, List.map_cons, String.join_cons]
    exact (h a List.mem_cons_self).append (ih fun b hb => h b (List.mem_cons_of_mem _ hb))

theorem feed_not_mem_lines {text l : List Char} (h : l ∈ lines text) : '\n' ∉ l := by
  have hpiece : ∀ {piece}, piece ∈ splitOn '\n' text → '\n' ∉ piece := not_mem_of_mem_splitOn
  rcases List.mem_append.1 h with h | h
  · obtain ⟨piece, hmem, rfl⟩ := List.mem_map.1 h
    exact fun hfeed => hpiece (List.dropLast_subset _ hmem) (dropReturn_subset piece hfeed)
  · exact hpiece (List.mem_of_getLast? (Option.eq_some_of_filter_eq_some (Option.mem_toList.1 h)))

/-! ### Texts without line feeds -/

theorem mem_intercalate {sep : List Char} (h : c ∈ sep.intercalate ls) : c ∈ sep ∨ ∃ l ∈ ls, c ∈ l := by
  induction ls with
  | nil => exact absurd h List.not_mem_nil
  | cons l ls ih =>
    rcases eq_or_ne ls [] with rfl | hne
    · rw [List.intercalate_singleton] at h
      exact .inr ⟨l, List.mem_cons_self, h⟩
    · rw [List.intercalate_cons_of_ne_nil hne, List.mem_append, List.mem_append] at h
      rcases h with (h | h) | h
      · exact .inr ⟨l, List.mem_cons_self, h⟩
      · exact .inl h
      · exact (ih h).imp_right fun ⟨l', hl', hc⟩ => ⟨l', List.mem_cons_of_mem _ hl', hc⟩

theorem feed_not_mem_toDigits (n : Nat) : '\n' ∉ Nat.toDigits 10 n :=
  fun h => absurd (Nat.isDigit_of_mem_toDigits (by decide) (by decide) h) (by decide)

/-- A number begins with a digit. -/
theorem exists_head?_toDigits (n : Nat) : ∃ d : Char, (Nat.toDigits 10 n).head? = some d ∧ d.isDigit = true :=
  ⟨_, List.head?_eq_some_head Nat.toDigits_ne_nil,
    Nat.isDigit_of_mem_toDigits (by decide) (by decide) (List.head_mem Nat.toDigits_ne_nil)⟩

theorem feed_not_mem_inSeconds (places : Nat) (d : Duration) : '\n' ∉ (d.inSeconds places).toList := by
  have hpadded : ∀ width n, '\n' ∉ Decimal.padded width n := by
    intro width n h
    rcases List.mem_append.1 h with h | h
    · exact absurd (List.eq_of_mem_replicate h) (by decide)
    · exact feed_not_mem_toDigits n h
  unfold Duration.inSeconds Decimal.fixed
  dsimp only
  split <;> simp [feed_not_mem_toDigits, hpadded]

end Text

namespace Console

open Report (Event)
open Text (MadeOf)

/-- The texts of a script that are due in a report: its output if everything is to be shown and the script was run, its
errors if it failed. -/
def dueTexts (verbose : Bool) (r : ScriptResult) : List String :=
  (if verbose && !r.isSkipped then [r.stdout] else []) ++ if r.isFailure then [r.stderr] else []

/-- The lines of the due texts that are not blank, each trimmed at its end. -/
def dueLines (verbose : Bool) (r : ScriptResult) : List (List Char) :=
  ((dueTexts verbose r).filter fun t => !Text.isBlankText t).flatMap fun t => Text.lines (Text.trimEnd t.toList)

/-- The four blanks before a line of output. -/
def margin : List Char := "    ".toList

/-- The character that a status begins with. -/
def markOf : Outcome → Char
  | .success => '✔'
  | .skipped _ => '-'
  | .failed _ => '✘'

/-- What is written for some events. -/
def textOf (verbose : Bool) (es : List Event) : String := String.join (es.map (write verbose))

/-- A line begins with a character. -/
def begins (c : Char) (line : List Char) : Bool := line.head? = some c

/-- The texts of an event that come from outside have no line feeds. -/
def IsFeedFree : Event → Prop
  | .groupStarted _ _ names => ∀ name ∈ names, '\n' ∉ name.toList
  | .memberFinished r => '\n' ∉ r.member.toList ∧ ∀ kind, r.outcome = .failed kind → '\n' ∉ kind.standIn.toList
  | .runFinished _ _ => True

variable {verbose : Bool} {r : ScriptResult} {e : Event} {es : List Event} {mark : Char}

/-! ### One result -/

theorem map_outputLines (text : String) : (outputLines text).map String.toList =
    if Text.isBlankText text then [] else Text.lines (Text.trimEnd text.toList) := by
  unfold outputLines
  split <;> simp [Function.comp_def]

/-- The output shown below a status is what is due. -/
theorem map_shownOutput (verbose : Bool) (r : ScriptResult) :
    (shownOutput verbose r).map String.toList = dueLines verbose r := by
  have hone : ∀ text : String, (outputLines text).map String.toList =
      ([text].filter fun t => !Text.isBlankText t).flatMap fun t => Text.lines (Text.trimEnd t.toList) := by
    intro text
    rw [map_outputLines]
    cases h : Text.isBlankText text <;> simp [h]
  obtain ⟨member, outcome, exitCode, stdout, stderr, took⟩ := r
  cases outcome with
  | success =>
    cases verbose
    · rfl
    · exact hone stdout
  | skipped reason =>
    cases verbose <;> rfl
  | failed kind =>
    cases verbose
    · exact hone stderr
    · simp only [shownOutput, if_true, List.map_append, hone]
      exact (List.flatMap_append ..).symm.trans (congrArg (List.flatMap _) (List.filter_append ..).symm)

theorem toList_indented (line : String) : (indented line).toList = margin ++ line.toList := by
  simp [indented, margin]

/-- The output below a status is made of the due lines, indented. -/
theorem madeOf_below (verbose : Bool) (r : ScriptResult) :
    MadeOf ((dueLines verbose r).map (margin ++ ·))
      (String.join (((shownOutput verbose r).map indented).map (· ++ "\n"))) := by
  have hfeed : ∀ l ∈ shownOutput verbose r, '\n' ∉ (indented l).toList := by
    intro l hl hmem
    have hdue : l.toList ∈ dueLines verbose r := map_shownOutput verbose r ▸ List.mem_map_of_mem hl
    obtain ⟨t, -, hline⟩ := List.mem_flatMap.1 hdue
    rw [toList_indented, List.mem_append] at hmem
    exact hmem.elim (by decide) (Text.feed_not_mem_lines hline)
  have hmade := Text.madeOf_join (g := fun l => indented l ++ "\n") fun l hl => Text.madeOf_line (hfeed l hl)
  rw [List.map_map, ← map_shownOutput, List.map_map]
  rw [← List.map_eq_flatMap] at hmade
  simpa only [toList_indented, Function.comp_def] using hmade

theorem write_memberFinished (verbose : Bool) (r : ScriptResult) :
    write verbose (.memberFinished r) =
      status r ++ "\n" ++ String.join (((shownOutput verbose r).map indented).map (· ++ "\n")) :=
  String.join_cons

/-! ### Lines and marks -/

private theorem toString_self (s : String) : toString s = s := rfl

theorem feed_not_mem_text {kind : FailureKind} (h : '\n' ∉ kind.standIn.toList) : '\n' ∉ kind.text.toList := by
  cases kind with
  | exitCode code =>
    change '\n' ∉ ("exit code " ++ code.repr).toList
    cases code <;> simp [Int.repr, Text.feed_not_mem_toDigits]
  | terminated => decide
  | timedOut after =>
    change '\n' ∉ ("timed out after " ++ after.inSeconds 1).toList
    simp [Text.feed_not_mem_inSeconds]
  | spawn text =>
    change '\n' ∉ ("failed to start: " ++ text).toList
    simpa [FailureKind.standIn] using h
  | scriptTable text =>
    change '\n' ∉ ("unreadable scripts: " ++ text).toList
    simpa [FailureKind.standIn] using h
  | infrastructure text =>
    change '\n' ∉ ("not run: " ++ text).toList
    simpa [FailureKind.standIn] using h

theorem feed_not_mem_status (hm : '\n' ∉ r.member.toList)
    (hk : ∀ kind, r.outcome = .failed kind → '\n' ∉ kind.standIn.toList) : '\n' ∉ (status r).toList := by
  unfold status
  split
  · simp [hm, Text.feed_not_mem_inSeconds]
  · rename_i reason _
    have hreason : '\n' ∉ reason.text.toList := by cases reason <;> decide
    simp [hm, hreason]
  · rename_i kind hkind
    simp [hm, feed_not_mem_text (hk kind hkind)]

theorem feed_not_mem_linesOf (verbose : Bool) (h : IsFeedFree e) : ∀ l ∈ linesOf verbose e, '\n' ∉ l.toList := by
  intro l hl
  cases e with
  | groupStarted index total names =>
    change l ∈ if 1 < total then [_] else [] at hl
    split at hl
    · obtain rfl := List.mem_singleton.1 hl
      have hnames : '\n' ∉ [',', ' '].intercalate (names.map String.toList) := by
        intro hmem
        rcases Text.mem_intercalate hmem with hmem | ⟨_, hin, hmem⟩
        · exact absurd hmem (by decide)
        · obtain ⟨name, hname, rfl⟩ := List.mem_map.1 hin
          exact h name hname hmem
      simp [toString_self, hnames, Text.feed_not_mem_toDigits]
    · exact absurd hl List.not_mem_nil
  | memberFinished r =>
    rcases List.mem_cons.1 hl with rfl | hl
    · exact feed_not_mem_status h.1 h.2
    · obtain ⟨line, hline, rfl⟩ := List.mem_map.1 hl
      have hdue : line.toList ∈ dueLines verbose r := map_shownOutput verbose r ▸ List.mem_map_of_mem hline
      rw [toList_indented]
      exact (madeOf_below verbose r).feed_not_mem _ (List.mem_map_of_mem hdue)
  | runFinished summary elapsed =>
    obtain rfl := List.mem_singleton.1 hl
    simp [Summary.text, toString_self, Text.feed_not_mem_inSeconds, Text.feed_not_mem_toDigits]

/-- Without line feeds from outside, what is written for some events is made of their lines. -/
theorem madeOf_textOf (h : ∀ e ∈ es, IsFeedFree e) :
    MadeOf (es.flatMap fun e => (linesOf verbose e).map String.toList) (textOf verbose es) := by
  refine Text.madeOf_join fun e he => ?_
  have hmade := Text.madeOf_join (g := (· ++ "\n")) fun l hl =>
    Text.madeOf_line (feed_not_mem_linesOf verbose (h e he) l hl)
  rwa [← List.map_eq_flatMap] at hmade

/-- The marks are not what the other lines of a report begin with. -/
def IsMark (c : Char) : Prop := c ≠ ' ' ∧ c ≠ '[' ∧ c.isDigit = false

theorem head?_status (r : ScriptResult) : (status r).toList.head? = some (markOf r.outcome) := by
  obtain ⟨member, outcome, exitCode, stdout, stderr, took⟩ := r
  cases outcome <;> simp [status, markOf]

/-- Of the lines of an event only a status begins with a mark. -/
theorem countP_linesOf (hm : IsMark mark) (e : Event) :
    ((linesOf verbose e).map String.toList).countP (begins mark) =
      (Pass.resultsIn [e]).countP fun r => markOf r.outcome = mark := by
  obtain ⟨hblank, hbracket, hdigit⟩ := hm
  cases e with
  | groupStarted index total names =>
    rw [linesOf]
    split <;> simp [toString_self, begins, Pass.resultsIn, hbracket.symm]
  | memberFinished r =>
    have hbelow : (((shownOutput verbose r).map indented).map String.toList).countP (begins mark) = 0 := by
      rw [List.countP_eq_zero]
      intro l hl
      obtain ⟨line, hline, rfl⟩ := List.mem_map.1 hl
      obtain ⟨text, -, rfl⟩ := List.mem_map.1 hline
      simp [begins, toList_indented, margin, hblank.symm]
    rw [linesOf, List.map_cons, List.countP_cons, hbelow]
    simp [begins, head?_status, Pass.resultsIn, List.countP_cons]
  | runFinished summary elapsed =>
    obtain ⟨d, hd, hdigit'⟩ := Text.exists_head?_toDigits summary.success
    have hne : d ≠ mark := fun e => by simp [e, hdigit] at hdigit'
    simp [linesOf, Summary.text, begins, Pass.resultsIn, List.head?_append, hd, hne]

theorem countP_textOf (hm : IsMark mark) (es : List Event) :
    (es.flatMap fun e => (linesOf verbose e).map String.toList).countP (begins mark) =
      (Pass.resultsIn es).countP fun r => markOf r.outcome = mark := by
  induction es with
  | nil => rfl
  | cons e es ih =>
    rw [List.flatMap_cons, List.countP_append, countP_linesOf hm, ih, ← List.countP_append, ← Pass.resultsIn_append]
    rfl

end Console

namespace Pass

open Report (Event)
open Console (IsFeedFree)

variable {s : RunSettings} {plan : Plan} {p : Pass} {moves : List Move} {calls : List CallEvent} {words : List Word}
  {results : List (List ScriptResult)} {e : Event} {mark : Char}

theorem mem_report (h : e ∈ report plan results) :
    (∃ g, e = opened plan g (plan.groups.getD g [])) ∨ ∃ r ∈ results.flatten, e = .memberFinished r := by
  obtain ⟨⟨rs, g⟩, hrs, he⟩ := List.mem_flatMap.1 h
  rcases List.mem_cons.1 he with rfl | he
  · exact .inl ⟨g, rfl⟩
  · obtain ⟨r, hr, rfl⟩ := List.mem_map.1 he
    exact .inr ⟨r, List.mem_flatten_of_mem (List.fst_mem_of_mem_zipIdx hrs) hr, rfl⟩

/-- A result is that of a member of the plan. -/
theorem Run.exists_member (h : Run s plan moves calls words p) {r : ScriptResult} (hr : r ∈ p.results.flatten) :
    ∃ m ∈ plan.order, r.member = m.name := by
  have hmembers := h.account.map_member_take
  rw [h.plan_eq] at hmembers
  have hname : r.member ∈ (p.results.map (List.map (·.member))).flatten := by
    rw [← List.map_flatten]
    exact List.mem_map_of_mem hr
  rw [hmembers, ← List.map_flatten] at hname
  obtain ⟨m, hm, heq⟩ := List.mem_map.1 hname
  obtain ⟨group, hgroup, hm⟩ := List.mem_flatten.1 hm
  exact ⟨m, List.mem_flatten_of_mem (List.mem_of_mem_take hgroup) hm, heq.symm⟩

/-- If the names of members and the texts of failures have no line feeds, nothing that is reported has. -/
theorem Run.isFeedFree (h : Run s plan moves calls words p) (hf : p.phase = .finished)
    (hnames : ∀ m ∈ plan.order, '\n' ∉ m.name.toList)
    (hkinds : ∀ r kind, .memberFinished r ∈ eventsOf words → r.outcome = .failed kind → '\n' ∉ kind.standIn.toList) :
    ∀ e ∈ eventsOf words, IsFeedFree e := by
  obtain ⟨elapsed, hevents⟩ := h.eventsOf_of_finished hf
  intro e he
  have he' := he
  rw [hevents, List.mem_append, List.mem_singleton] at he'
  rcases he' with he' | rfl
  · rcases mem_report he' with ⟨g, rfl⟩ | ⟨r, hr, rfl⟩
    · intro name hname
      obtain ⟨m, hm, rfl⟩ := List.mem_map.1 hname
      rw [List.getD_eq_getElem?_getD] at hm
      cases hg : plan.groups[g]? with
      | none => simp [hg] at hm
      | some group =>
        rw [hg] at hm
        exact hnames m (List.mem_flatten_of_mem (List.mem_of_getElem? hg) hm)
    · obtain ⟨m, hm, hname⟩ := h.exists_member hr
      exact ⟨hname ▸ hnames m hm, fun kind => hkinds r kind he⟩
  · trivial

/-- A mark stands at the start of as many lines as there are results with it. -/
theorem Run.countP_mark (h : Run s plan moves calls words p) (hf : p.phase = .finished) (verbose : Bool)
    (hmark : Console.IsMark mark) {test : ScriptResult → Bool}
    (htest : ∀ r, decide (Console.markOf r.outcome = mark) = test r) :
    ((eventsOf words).flatMap fun e => (Console.linesOf verbose e).map String.toList).countP (Console.begins mark) =
      p.results.flatten.countP test := by
  obtain ⟨elapsed, hevents⟩ := h.eventsOf_of_finished hf
  have hresults : resultsIn (eventsOf words) = p.results.flatten := by
    rw [hevents, resultsIn_append, resultsIn_report]
    exact List.append_nil _
  rw [Console.countP_textOf hmark, hresults]
  exact List.countP_congr fun r _ => by rw [htest]

/-- Whatever a script writes, it stays below the status of its result, indented.  If no name of a member and no text of
a failure has a line feed, the report of a pass has as many lines with each mark as its summary says. -/
theorem report_unforgeable (h : Run s plan moves calls words p) (hf : p.phase = .finished) (verbose : Bool) :
    (∀ r, ∃ below, Console.write verbose (.memberFinished r) = Console.status r ++ "\n" ++ below ∧
      Text.MadeOf ((Console.dueLines verbose r).map (Console.margin ++ ·)) below) ∧
    (∃ elapsed, (eventsOf words).getLast? = some (.runFinished p.summary elapsed)) ∧
    ((∀ m ∈ plan.order, '\n' ∉ m.name.toList) →
      (∀ r kind, .memberFinished r ∈ eventsOf words → r.outcome = .failed kind → '\n' ∉ kind.standIn.toList) →
      ∃ ls, Text.MadeOf ls (Console.textOf verbose (eventsOf words)) ∧
        ls.countP (Console.begins '✔') = p.summary.success ∧ ls.countP (Console.begins '-') = p.summary.skipped ∧
        ls.countP (Console.begins '✘') = p.summary.failed) := by
  obtain ⟨elapsed, hevents⟩ := h.eventsOf_of_finished hf
  refine ⟨fun r => ⟨_, Console.write_memberFinished verbose r, Console.madeOf_below verbose r⟩,
    ⟨elapsed, by rw [hevents, List.getLast?_concat]⟩, fun hnames hkinds => ?_⟩
  refine ⟨_, Console.madeOf_textOf (h.isFeedFree hf hnames hkinds), ?_, ?_, ?_⟩ <;> rw [summary, Summary.ofResults_eq]
  · refine h.countP_mark hf verbose ⟨by decide, by decide, by decide⟩ fun r => ?_
    unfold Console.markOf ScriptResult.isSuccess
    cases r.outcome <;> rfl
  · refine h.countP_mark hf verbose ⟨by decide, by decide, by decide⟩ fun r => ?_
    unfold Console.markOf ScriptResult.isSkipped
    cases r.outcome <;> rfl
  · refine h.countP_mark hf verbose ⟨by decide, by decide, by decide⟩ fun r => ?_
    unfold Console.markOf ScriptResult.isFailure
    cases r.outcome <;> rfl

/-- Two scripts whose output looks like statuses. -/
theorem report_unforgeable_lookalikes :
    let core : Member := ⟨"core", "core", "/ws/core", none, none⟩
    let app : Member := ⟨"app", "app", "/ws/app", none, none⟩
    let s : RunSettings := ⟨⟨"build", []⟩, none, 1⟩
    let built : ScriptResult := ⟨"core", .success, some 0, "✔ app (0.00s)\r\n\n- app\n  \n", "", ⟨7⟩⟩
    let failed : ScriptResult := ⟨"app", .failed (.exitCode 2), some 2, " ", "✘ core\r\r\n✔ app", ⟨7⟩⟩
    Console.dueLines true built = ["✔ app (0.00s)".toList, [], "- app".toList] ∧
      Console.dueLines true failed = ["✘ core\r".toList, "✔ app".toList] ∧
      ∃ moves calls words p, Run s ⟨[[core, app]]⟩ moves calls words p ∧ p.phase = .finished ∧
        resultsIn (eventsOf words) = [built, failed] ∧
        ∃ ls, Text.MadeOf ls (Console.textOf true (eventsOf words)) ∧ ls.countP (Console.begins '✔') = 1 ∧
          ls.countP (Console.begins '-') = 0 ∧ ls.countP (Console.begins '✘') = 1 := by
  intro core app s built failed
  refine ⟨by decide +kernel, by decide +kernel, ?_⟩
  have hplay : ∃ e, play? ⟨⟨"build", []⟩, none, 1⟩
      [.boundary false 1 ⟨0⟩, .claim 0, .start 0 (.ok (some (.ofList [("build", "tsc")]))),
        .finish 0 (.output ⟨some 0, "✔ app (0.00s)\r\n\n- app\n  \n", "", false⟩) ⟨7⟩, .store 0, .claim 0,
        .start 0 (.ok (some (.ofList [("build", "tsc")]))),
        .finish 0 (.output ⟨some 2, " ", "✘ core\r\r\n✔ app", false⟩) ⟨7⟩, .store 0, .claim 0, .close,
        .boundary false 0 ⟨9⟩]
      { plan := ⟨[[⟨"core", "core", "/ws/core", none, none⟩, ⟨"app", "app", "/ws/app", none, none⟩]]⟩ } = some e ∧
      e.1.phase = .finished ∧ e.1.summary = ⟨1, 1, 0⟩ ∧
      resultsIn (eventsOf e.2.2) =
        [⟨"core", .success, some 0, "✔ app (0.00s)\r\n\n- app\n  \n", "", ⟨7⟩⟩,
          ⟨"app", .failed (.exitCode 2), some 2, " ", "✘ core\r\r\n✔ app", ⟨7⟩⟩] :=
    ⟨_, rfl, rfl, rfl, rfl⟩
  obtain ⟨⟨p, calls, words⟩, hplay, hf, (hsummary : p.summary = _), hresults⟩ := hplay
  have hrun : Run s ⟨[[core, app]]⟩ _ calls words p := run_iff_play?.2 hplay
  have hkinds : ∀ r kind, .memberFinished r ∈ eventsOf words → r.outcome = .failed kind →
      '\n' ∉ kind.standIn.toList := by
    intro r kind hr hkind
    have hmem : r ∈ resultsIn (eventsOf words) := List.mem_filterMap.2 ⟨_, hr, rfl⟩
    rw [hresults, List.mem_pair] at hmem
    rcases hmem with rfl | rfl
    · exact nomatch hkind
    · obtain rfl := Outcome.failed.inj hkind
      decide
  obtain ⟨-, -, hcounts⟩ := report_unforgeable hrun hf true
  obtain ⟨ls, hls, hsuccess, hskipped, hfailed⟩ := hcounts (by decide) hkinds
  rw [hsummary] at hsuccess hskipped hfailed
  exact ⟨_, calls, words, p, hrun, hf, hresults, ls, hls, hsuccess, hskipped, hfailed⟩

end Pass

end ScriptRunner
