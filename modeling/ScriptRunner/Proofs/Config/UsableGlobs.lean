import ScriptRunner.Config.Validation
import ScriptRunner.Proofs.Glob.Reading
import ScriptRunner.Proofs.Planning.Preparation
import ScriptRunner.Watch.Snapshot
import ScriptRunner.Workspace.Discovery

/-!
# Globs of accepted configs

A config is accepted if the patterns for its members, without their signs, and the excludes of its watch are globs as
they are written.  The excludes are read as they are written, so that they can always be used.  A member pattern is
read without the points and slashes in front of it and the slashes at its end.  Its front may go, but a backslash may
be left that escaped the first of the slashes cut off at its end (`Discovery.CutsEscape`).  Such a pattern is no glob
any more, and the first of them is reported when the workspace is loaded; all other member patterns can be used.
-/

namespace ScriptRunner

/-! ### Member patterns -/

namespace Discovery

variable {pattern : String} {patterns : List String}

/-- What a member pattern is read as, without its sign. -/
def body (pattern : String) : List Char := trimPattern (Config.withoutSign pattern).toList

/-- A backslash is left at the end of the pattern that escaped the first of the slashes cut off. -/
def CutsEscape (pattern : String) : Prop := Glob.EndsInEscape (body pattern)

instance (pattern : String) : Decidable (CutsEscape pattern) := inferInstanceAs (Decidable (Glob.EndsInEscape _))

def cutFailure (pattern : String) : Failure :=
  .config ("invalid workspace member glob '" ++ pattern ++ "': " ++
    (⟨String.ofList (body pattern), .danglingEscape⟩ : Glob.Error).message)

theorem fault?_front {depth : Nat} (s : List Char) : Glob.fault? depth (trimPattern.front s) = Glob.fault? depth s := by
  fun_induction trimPattern.front s with
  | case1 rest ih => rw [ih, Glob.fault?_of_plain (by decide), Glob.fault?_of_plain (by decide)]
  | case2 => rfl

/-- A pattern that is a glob as it is written has one fault at most when it is read. -/
theorem fault?_body (h : Glob.fault? 0 (Config.withoutSign pattern).toList = none) :
    Glob.fault? 0 (body pattern) = if CutsEscape pattern then some .danglingEscape else none :=
  Glob.fault?_rdropWhile_slash ((fault?_front _).trans h)

theorem memberGlob_eq (pattern : String) : memberGlob pattern =
    ((Glob.parse (String.ofList (body pattern)) true).mapError fun e =>
      Failure.config ("invalid workspace member glob '" ++ pattern ++ "': " ++ e.message)).map
        (decide (pattern.toList.head? = some '!'), ·) := by
  unfold memberGlob body Config.withoutSign
  -- a sign is taken off here and there alike
  cases hp : pattern.toList with
  | nil =>
    simp only [hp]
    cases Glob.parse _ true <;> rfl
  | cons c rest =>
    by_cases hc : c = '!'
    · simp only [hc, String.toList_ofList, List.head?_cons, decide_true]
      cases Glob.parse _ true <;> rfl
    · simp only [List.cons.injEq, hc, false_and, imp_self, implies_true, hp, List.head?_cons, Option.some.injEq,
        decide_false]
      cases Glob.parse _ true <;> rfl

theorem exists_memberGlob (h : Glob.fault? 0 (Config.withoutSign pattern).toList = none) (hcut : ¬ CutsEscape pattern) :
    ∃ g, memberGlob pattern = .ok g := by
  obtain ⟨g, hg⟩ := (Glob.exists_parse_iff (String.ofList (body pattern)) true).2
    (by rw [String.toList_ofList, fault?_body h, if_neg hcut])
  exact ⟨_, by rw [memberGlob_eq, hg]; rfl⟩

theorem memberGlob_of_cutsEscape (h : Glob.fault? 0 (Config.withoutSign pattern).toList = none)
    (hcut : CutsEscape pattern) : memberGlob pattern = .error (cutFailure pattern) := by
  have hparse : Glob.parse (String.ofList (body pattern)) true =
      .error ⟨String.ofList (body pattern), .danglingEscape⟩ :=
    Glob.parse_eq_error_iff.2 ⟨rfl, by rw [String.toList_ofList, fault?_body h, if_pos hcut]⟩
  rw [memberGlob_eq, hparse]
  rfl

theorem exists_ofPatterns (h : ∀ p ∈ patterns, ∃ g, memberGlob p = .ok g) :
    ∃ globs, MemberGlobs.ofPatterns patterns = .ok globs :=
  except_exists_bind (except_exists_mapM h) fun _ => ⟨_, rfl⟩

/-- Reading the member globs ends at the first pattern that cannot be used. -/
theorem ofPatterns_of_find? (h : ∀ p ∈ patterns, Glob.fault? 0 (Config.withoutSign p).toList = none)
    (hcut : patterns.find? (CutsEscape ·) = some pattern) :
    MemberGlobs.ofPatterns patterns = .error (cutFailure pattern) := by
  obtain ⟨hpattern, before, after, rfl, hbefore⟩ := List.find?_eq_some_iff_append.1 hcut
  have hmapM : (before ++ pattern :: after).mapM memberGlob = .error (cutFailure pattern) :=
    except_mapM_eq_error
      (fun p hp => exists_memberGlob (h p (List.mem_append_left _ hp)) (by simpa using hbefore p hp))
      (memberGlob_of_cutsEscape (h _ (by simp)) (by simpa using hpattern))
  rw [MemberGlobs.ofPatterns, hmapM]
  rfl

end Discovery

/-! ### Excludes -/

theorem ScanOptions.exists_ofPatterns {exclude : List String} {useHash : Bool}
    (h : ∀ p ∈ exclude, Glob.fault? 0 p.toList = none) : ∃ o, ofPatterns exclude useHash = .ok o := by
  refine except_exists_bind (except_exists_mapM fun p hp => ?_) fun gs => ⟨⟨gs, useHash⟩, rfl⟩
  obtain ⟨g, hg⟩ := (Glob.exists_parse_iff p false).2 (h p hp)
  exact ⟨g, by rw [hg]⟩

/-! ### Accepted configs -/

namespace Config

variable {raw : RawConfig} {c : Config}

theorem checkGlob_eq_ok_iff {field pattern text : String} :
    checkGlob field pattern text = .ok () ↔ Glob.fault? 0 text.toList = none := by
  rw [← Glob.exists_parse_iff text false, checkGlob]
  cases Glob.parse text false <;> simp

theorem checkWatch_eq_ok {w : RawWatch} {s : WatchSettings} (h : checkWatch w = .ok s) :
    s.exclude = w.exclude ∧ s.useHash = w.useHash ∧ ∀ p ∈ w.exclude, Glob.fault? 0 p.toList = none := by
  obtain ⟨_, -, h⟩ := except_bind_eq_ok.1 h
  split at h
  · exact nomatch h
  · obtain ⟨_, -, h⟩ := except_bind_eq_ok.1 h
    obtain ⟨_, hexclude, h⟩ := except_bind_eq_ok.1 h
    obtain rfl := Except.ok.inj h
    exact ⟨rfl, rfl, fun p hp => checkGlob_eq_ok_iff.1 (except_forM_eq_ok_iff.1 hexclude p hp)⟩

/-- An accepted config has the globs that are written, and they are globs as they are written. -/
theorem globs_of_ofRaw (h : ofRaw raw = .ok c) :
    (c.members = raw.members ∧ ∀ p ∈ raw.members.getD [], Glob.fault? 0 (withoutSign p).toList = none) ∧
      c.watch.exclude = raw.watch.exclude ∧ c.watch.useHash = raw.watch.useHash ∧
      ∀ p ∈ raw.watch.exclude, Glob.fault? 0 p.toList = none := by
  obtain ⟨hmembers, -, timeout, watch, -, hwatch, rfl⟩ := ofRaw_eq_ok_iff.1 h
  exact ⟨⟨rfl, fun p hp => checkGlob_eq_ok_iff.1 (except_forM_eq_ok_iff.1 hmembers p hp)⟩, checkWatch_eq_ok hwatch⟩

open Discovery in
/-- The excludes of an accepted config can be used, and so can its member patterns, unless a backslash at the end of one
has lost the slash that it escaped; then the first such pattern is reported. -/
theorem globs_usable_iff (h : ofRaw raw = .ok c) :
    c.members = raw.members ∧ c.watch.exclude = raw.watch.exclude ∧ c.watch.useHash = raw.watch.useHash ∧
      (∃ o, ScanOptions.ofPatterns c.watch.exclude c.watch.useHash = .ok o) ∧
      ∀ patterns, c.members = some patterns →
        ((∃ globs, MemberGlobs.ofPatterns patterns = .ok globs) ↔ ∀ p ∈ patterns, ¬ CutsEscape p) ∧
        ∀ p, patterns.find? (CutsEscape ·) = some p → MemberGlobs.ofPatterns patterns = .error (cutFailure p) := by
  obtain ⟨⟨hmembers, hchecked⟩, hexclude, hhash, hexcludes⟩ := globs_of_ofRaw h
  refine ⟨hmembers, hexclude, hhash, ScanOptions.exists_ofPatterns (hexclude ▸ hexcludes), fun patterns hpatterns => ?_⟩
  have hfault : ∀ p ∈ patterns, Glob.fault? 0 (withoutSign p).toList = none := by
    rwa [← hmembers, hpatterns] at hchecked
  have hreported := fun p (hp : patterns.find? (CutsEscape ·) = some p) => ofPatterns_of_find? hfault hp
  refine ⟨⟨fun ⟨globs, hglobs⟩ => ?_, fun hcut => ?_⟩, hreported⟩
  · cases hfind : patterns.find? (CutsEscape ·) with
    | none => simpa using hfind
    | some p => exact nomatch hglobs.symm.trans (hreported p hfind)
  · exact exists_ofPatterns fun p hp => exists_memberGlob (hfault p hp) (hcut p hp)

/-- Backslashes that escape one another before a slash at the end. -/
theorem globs_usable_iff_escaped_backslash :
    let raw : RawConfig := { members := some ["./packages/*/", "tools\\\\//", "!old/[\\]/"] }
    ∃ c, ofRaw raw = .ok c ∧ (∃ o, ScanOptions.ofPatterns c.watch.exclude c.watch.useHash = .ok o) ∧
      ∃ globs, Discovery.MemberGlobs.ofPatterns ["./packages/*/", "tools\\\\//", "!old/[\\]/"] = .ok globs := by
  intro raw
  have hok : (ofRaw raw).toOption.isSome := by decide +kernel
  obtain ⟨c, hc⟩ := Option.isSome_iff_exists.1 hok
  have h := except_toOption_eq_some.1 hc
  obtain ⟨hmembers, -, -, hexcludes, hpatterns⟩ := globs_usable_iff h
  exact ⟨c, h, hexcludes, (hpatterns _ hmembers).1.2 (by decide +kernel)⟩

/-- An escaped slash at the end. -/
theorem globs_usable_iff_escaped_slash :
    let raw : RawConfig := { members := some ["packages/*", "tools\\/"] }
    ∃ c, ofRaw raw = .ok c ∧ c.members = some ["packages/*", "tools\\/"] ∧
      Discovery.MemberGlobs.ofPatterns ["packages/*", "tools\\/"] =
        .error (.config "invalid workspace member glob 'tools\\/': error parsing glob 'tools\\': dangling '\\'") := by
  intro raw
  have hok : (ofRaw raw).toOption.isSome := by decide +kernel
  obtain ⟨c, hc⟩ := Option.isSome_iff_exists.1 hok
  have h := except_toOption_eq_some.1 hc
  obtain ⟨⟨hmembers, hchecked⟩, -⟩ := globs_of_ofRaw h
  have hcut : ["packages/*", "tools\\/"].find? (Discovery.CutsEscape ·) = some "tools\\/" := by decide +kernel
  refine ⟨c, h, hmembers, (Discovery.ofPatterns_of_find? hchecked hcut).trans ?_⟩
  exact congrArg Except.error (by decide +kernel)

end Config

end ScriptRunner
