import Mathlib.Data.List.Nodup
import ScriptRunner.Proofs.Planning.Preparation
import ScriptRunner.Workspace.Discovery

/-!
# Loaded workspaces

Looking at a directory either fails, because the globs select it and its manifest cannot be read, or finds one more
member (`found?`), which is kept unless its name is taken.  What a whole search finds is therefore the first member of
each name, in the order of the directories (`foldlM_examine_eq_ok_iff`), and a workspace is loaded exactly when every
step before that succeeds (`Workspace.load_eq_ok_iff`).
-/

namespace ScriptRunner

namespace Discovery

variable {t : Tree} {root : String} {globs : MemberGlobs} {rel : String} {rels : List String}

/-- If the globs select a directory, its manifest can be read or is missing. -/
def Readable (t : Tree) (root : String) (globs : MemberGlobs) (rel : String) : Prop :=
  globs.selects rel → ∃ manifest, Manifest.read t (Path.join root rel) = .ok manifest

/-- The member of a directory that the globs select, with the manifest that makes it one. -/
def found? (t : Tree) (root : String) (globs : MemberGlobs) (rel : String) : Option (Member × Manifest) :=
  if globs.selects rel then
    match Manifest.read t (Path.join root rel) with
    | .ok (some manifest) => some (memberOf t root rel manifest, manifest)
    | _ => none
  else none

theorem found?_eq_some_iff {e : Member × Manifest} :
    found? t root globs rel = some e ↔ globs.selects rel ∧ Manifest.read t (Path.join root rel) = .ok (some e.2) ∧
      e.1 = memberOf t root rel e.2 := by
  unfold found?
  split
  · rename_i hsel
    split
    · rename_i manifest hread
      rw [hread, Option.some.injEq, Except.ok.injEq, Option.some.injEq, and_iff_right hsel, Prod.ext_iff]
      constructor
      · rintro ⟨hm, rfl⟩
        exact ⟨rfl, hm.symm⟩
      · rintro ⟨rfl, hm⟩
        exact ⟨hm.symm, rfl⟩
    · rename_i hread
      exact ⟨nofun, fun h => absurd h.2.1 (hread _)⟩
  · rename_i hsel
    exact ⟨nofun, fun h => absurd h.1 hsel⟩

/-- Two members found have one name. -/
def sameName (e f : Member × Manifest) : Bool := e.1.name = f.1.name

/-- One more member, unless its name is taken. -/
def keep (found : Found) (e : Member × Manifest) : Found := if found.any (sameName e) then found else found ++ [e]

/-! ### The search -/

theorem value_examine (found : Found) (h : Readable t root globs rel) :
    (examine t root globs found rel).run.value = .ok ((found? t root globs rel).elim found (keep found)) := by
  unfold examine found?
  by_cases hsel : globs.selects rel
  · obtain ⟨manifest, hread⟩ := h hsel
    rw [hsel, hread]
    cases manifest with
    | none => rfl
    | some manifest =>
      have htaken : sameName (memberOf t root rel manifest, manifest) =
          fun f => decide (f.1.name = (memberOf t root rel manifest).name) :=
        funext fun f => decide_eq_decide.2 eq_comm
      simp only [Bool.not_true, Bool.false_eq_true, if_true, if_false, Option.elim_some, keep, htaken]
      split <;> rfl
  · rw [Bool.not_eq_true] at hsel
    rw [hsel]
    rfl

theorem readable_of_examine {found found' : Found} (h : (examine t root globs found rel).run.value = .ok found') :
    Readable t root globs rel := by
  intro hsel
  unfold examine at h
  rw [hsel] at h
  cases hread : Manifest.read t (Path.join root rel) with
  | ok manifest => exact ⟨manifest, rfl⟩
  | error reasons =>
    rw [hread] at h
    exact nomatch h

/-- Keeping one after another keeps the first of each name. -/
theorem foldl_keep (es : Found) : es.foldl keep [] = es.eraseDupsBy sameName := by
  have key : ∀ found : Found, es.foldl keep found = List.eraseDupsBy.loop sameName es found.reverse := by
    induction es with
    | nil => exact fun found => found.reverse_reverse.symm
    | cons e es ih =>
      intro found
      rw [List.foldl_cons, ih, List.eraseDupsBy.loop, List.any_reverse, keep]
      cases found.any (sameName e) <;> simp
  exact key []

/-- A search finds the first member of each name. -/
theorem foldlM_examine_eq_ok_iff {found : Found} :
    (rels.foldlM (examine t root globs) []).run.value = .ok found ↔
      (∀ rel ∈ rels, Readable t root globs rel) ∧
        found = (rels.filterMap (found? t root globs)).eraseDupsBy sameName := by
  have key : ∀ found₀ : Found, (rels.foldlM (examine t root globs) found₀).run.value = .ok found ↔
      (∀ rel ∈ rels, Readable t root globs rel) ∧ found = (rels.filterMap (found? t root globs)).foldl keep found₀ := by
    induction rels with
    | nil => simp [eq_comm]
    | cons rel rels ih =>
      intro found₀
      rw [List.foldlM_cons, Attempt.value_bind_eq_ok, List.forall_mem_cons]
      constructor
      · rintro ⟨found₁, h, hrest⟩
        have hr := readable_of_examine h
        rw [value_examine found₀ hr, Except.ok.injEq] at h
        obtain ⟨hrs, hfound⟩ := (ih _).1 hrest
        refine ⟨⟨hr, hrs⟩, hfound.trans ?_⟩
        rw [← h, List.filterMap_cons]
        cases found? t root globs rel <;> rfl
      · rintro ⟨⟨hr, hrs⟩, hfound⟩
        refine ⟨_, value_examine found₀ hr, (ih _).2 ⟨hrs, hfound.trans ?_⟩⟩
        rw [List.filterMap_cons]
        cases found? t root globs rel <;> rfl
  rw [key, foldl_keep]

/-! ### The first of each name -/

theorem mem_of_mem_firsts {es : Found} {e : Member × Manifest} (h : e ∈ es.eraseDupsBy sameName) : e ∈ es := by
  rw [← foldl_keep] at h
  have hnil : ∀ e ∈ ([] : Found), e ∈ es := by simp
  refine List.foldlRecOn (motive := fun found => ∀ e ∈ found, e ∈ es) es keep hnil (fun found hf e he => ?_) e h
  unfold keep
  split
  · exact hf
  · exact List.forall_mem_append.2 ⟨hf, List.forall_mem_singleton.2 he⟩

/-- No two of the first members of each name have one name. -/
theorem nodup_names_firsts (es : Found) : ((es.eraseDupsBy sameName).map (·.1.name)).Nodup := by
  rw [← foldl_keep]
  have hnil : (([] : Found).map (·.1.name)).Nodup := List.nodup_nil
  refine List.foldlRecOn (motive := fun found => (found.map (·.1.name)).Nodup) es keep hnil fun found hf e _ => ?_
  unfold keep
  split
  · exact hf
  · rename_i hnew
    rw [List.map_append, List.map_singleton, ← List.concat_eq_append, List.nodup_concat]
    refine ⟨fun hmem => hnew ?_, hf⟩
    obtain ⟨f, hfound, hname⟩ := List.mem_map.1 hmem
    exact List.any_eq_true.2 ⟨f, hfound, decide_eq_true hname.symm⟩

end Discovery

namespace Workspace

open Discovery

variable {t : Tree} {cwd : List String} {configured : Option (List String)} {path : String} {w : Workspace}

/-- The workspace of what a search finds. -/
def ofFound (root : String) (found : Found) : Workspace := ⟨root, found.map (·.1), dependenciesOf found⟩

/-- A workspace is loaded if its top, the member globs, the directories and the manifests of those that the globs select
can be read; its members are the first of each name. -/
theorem load_eq_ok_iff :
    (Workspace.load t cwd configured path).run.value = .ok w ↔
      ∃ root patterns globs dirs, t.canonical cwd path = .ok root ∧ globsOf t configured root = .ok patterns ∧
        MemberGlobs.ofPatterns patterns = .ok globs ∧ candidates t root maxDepth "" = .ok dirs ∧
        (∀ rel ∈ dirs, Readable t root globs rel) ∧
        w = ofFound root ((dirs.filterMap (found? t root globs)).eraseDupsBy sameName) := by
  unfold Workspace.load
  dsimp only
  cases t.canonical cwd path with
  | error e => exact ⟨nofun, fun ⟨_, _, _, _, h, _⟩ => nomatch h⟩
  | ok root =>
    simp only [pure_bind, Attempt.value_bind_eq_ok, foldlM_examine_eq_ok_iff, load.liftExcept, Attempt.value_lift,
      Attempt.value_pure, Except.ok.injEq]
    constructor
    · rintro ⟨patterns, hpatterns, globs, hglobs, dirs, hdirs, _, ⟨hr, rfl⟩, _, -, rfl⟩
      exact ⟨root, patterns, globs, dirs, rfl, hpatterns, hglobs, hdirs, hr, rfl⟩
    · rintro ⟨_, patterns, globs, dirs, rfl, hpatterns, hglobs, hdirs, hr, rfl⟩
      exact ⟨patterns, hpatterns, globs, hglobs, dirs, hdirs, _, ⟨hr, rfl⟩, (), trivial, rfl⟩

theorem nodup_names_of_load (h : (Workspace.load t cwd configured path).run.value = .ok w) :
    (w.members.map (·.name)).Nodup := by
  obtain ⟨root, _, globs, dirs, -, -, -, -, -, rfl⟩ := load_eq_ok_iff.1 h
  rw [ofFound, List.map_map]
  exact nodup_names_firsts _

end Workspace

end ScriptRunner
