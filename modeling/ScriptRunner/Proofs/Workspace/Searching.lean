import Mathlib.Data.List.Forall2
import ScriptRunner.Proofs.Files.Walking
import ScriptRunner.Proofs.Workspace.Loading

/-!
# The search for members

The search keeps the names of the directories on its way in one text, and finds the directory again through that text.
Below the top both come to the same: the candidates are, in ascending order, the directories at most eight levels down
that names lead to which are not passed over (`candidates_eq`, `mem_searched_iff`, `pairwise_searched`), links
included, however they run.  So a workspace has the members that its globs choose (`Workspace.load_discovers`), unless
a name has a backslash, for which the text has a slash (`Workspace.load_discovers_backslash`).
-/

namespace ScriptRunner

namespace Discovery

variable {t : Tree} {root name : String} {ns rest : List String}

/-! ### One directory -/

theorem isSkipped_eq_false_iff : isSkipped name = false ↔ name.toList.head? ≠ some '.' ∧ name ≠ "node_modules" := by
  simp [isSkipped, skippedDirs]

theorem subdirs_eq {dir : String} {place : List String} {entries : List (String × Node)}
    (h : t.resolve [] dir = .ok (place, .dir entries)) :
    subdirs t dir = .ok ((entries.map (·.1)).filter fun name => t.hasDir (Path.join dir name)) := by
  unfold subdirs
  rw [h]

/-- The names that the search goes on to. -/
def entered (t : Tree) (root : String) (ns : List String) : List String :=
  match subdirs t (Path.below root ns) with
  | .ok names => names.filter fun name => !isSkipped name
  | .error _ => []

theorem exists_subdirs (hdir : t.hasDir (Path.below root ns)) :
    ∃ names, subdirs t (Path.below root ns) = .ok names ∧
      entered t root ns = names.filter fun name => !isSkipped name := by
  obtain ⟨_, _, hplace⟩ := Tree.hasDir_iff.1 hdir
  refine ⟨_, subdirs_eq hplace, ?_⟩
  unfold entered
  rw [subdirs_eq hplace]

section

variable (ht : t.WellNamed) (hroot : Path.isAbsolute root) (hns : ∀ name ∈ ns, Path.IsName name)

include hroot

theorem ne_empty_of_isAbsolute : root ≠ "" := by
  rintro rfl
  exact nomatch hroot

/-- What a path below the top leads to. -/
theorem resolve_below_iff (hns : ∀ name ∈ ns, Path.IsName name) {place : List String}
    {entries : List (String × Node)} :
    t.resolve [] (Path.below root ns) = .ok (place, .dir entries) ↔
      Path.Fits (Path.below root ns) ∧ t.Leads Tree.maxLinks [] (Path.names root ++ ns) place (.dir entries) := by
  rw [Tree.resolve_eq_dir_iff, Path.isAbsolute_below hroot hns, if_pos rfl,
    Path.names_below (ne_empty_of_isAbsolute hroot) hns]

/-- On the way to a directory there are only directories. -/
theorem hasDir_of_append (hnames : ∀ name ∈ ns ++ rest, Path.IsName name)
    (h : t.hasDir (Path.below root (ns ++ rest))) : t.hasDir (Path.below root ns) := by
  have hns := (List.forall_mem_append.1 hnames).1
  obtain ⟨place, entries, hplace⟩ := Tree.hasDir_iff.1 h
  obtain ⟨hfits, hleads⟩ := (resolve_below_iff hroot hnames).1 hplace
  rw [← List.append_assoc] at hleads
  obtain ⟨q, m, links', hq, hrest⟩ := hleads.split
  have hdir : ∃ es, m = .dir es := by
    cases rest with
    | nil =>
      rw [List.append_nil] at hleads
      exact ⟨_, (hq.unique hleads).2⟩
    | cons name rest =>
      obtain ⟨es, child, hget, -⟩ := hrest.exists_child (hnames name (by simp)).2.2.1
      exact ⟨es, Option.some.inj (hq.get?_eq.symm.trans hget)⟩
  obtain ⟨es, rfl⟩ := hdir
  obtain ⟨s, hs⟩ := Path.exists_below_eq_append (ne_empty_of_isAbsolute hroot) hnames
  have hne := Path.below_ne_empty (ne_empty_of_isAbsolute hroot) hns
  exact Tree.hasDir_iff.2 ⟨q, es, (resolve_below_iff hroot hns).2 ⟨(hs ▸ hfits).of_append hne, hq⟩⟩

include ht hns

theorem mem_entered_iff (hdir : t.hasDir (Path.below root ns)) :
    name ∈ entered t root ns ↔
      Path.IsName name ∧ isSkipped name = false ∧ t.hasDir (Path.below root (ns ++ [name])) := by
  obtain ⟨place, entries, hplace⟩ := Tree.hasDir_iff.1 hdir
  have hleads := ((resolve_below_iff hroot hns).1 hplace).2
  have hget := hleads.get?_eq
  unfold entered
  rw [subdirs_eq hplace]
  simp only [List.mem_filter, Path.below_concat, Bool.not_eq_true']
  constructor
  · rintro ⟨⟨hname, hbelow⟩, hskip⟩
    obtain ⟨e, he, rfl⟩ := List.mem_map.1 hname
    exact ⟨(ht _ _ hget).2 e he, hskip, hbelow⟩
  · rintro ⟨hname, hskip, hbelow⟩
    refine ⟨⟨?_, hbelow⟩, hskip⟩
    -- the name leads on from the directory, so that it is in the listing
    have hnames : ∀ n ∈ ns ++ [name], Path.IsName n :=
      List.forall_mem_append.2 ⟨hns, List.forall_mem_singleton.2 hname⟩
    rw [← Path.below_concat] at hbelow
    obtain ⟨_, _, hresolve⟩ := Tree.hasDir_iff.1 hbelow
    have hlong := ((resolve_below_iff hroot hnames).1 hresolve).2
    rw [← List.append_assoc] at hlong
    obtain ⟨q, m, _, hq, hlast⟩ := hlong.split
    obtain ⟨rfl, rfl⟩ := hq.unique hleads
    obtain ⟨es, child, hes, hchild⟩ := hlast.exists_child hname.2.2.1
    obtain rfl := Node.dir.inj (Option.some.inj (hget.symm.trans hes))
    exact List.mem_map.2 ⟨_, Node.mem_of_child? hchild, rfl⟩

theorem pairwise_entered (hdir : t.hasDir (Path.below root ns)) : (entered t root ns).Pairwise (· < ·) := by
  obtain ⟨place, entries, hplace⟩ := Tree.hasDir_iff.1 hdir
  have hget := ((resolve_below_iff hroot hns).1 hplace).2.get?_eq
  unfold entered
  rw [subdirs_eq hplace]
  exact ((ht _ _ hget).1.filter _).filter _

end

/-! ### The whole search -/

/-- The names of the directories that are searched below a directory, each before those below it. -/
def searched (t : Tree) (root : String) : (depth : Nat) → (ns : List String) → List (List String)
  | 0, _ => []
  | depth + 1, ns =>
    (entered t root ns).flatMap fun name => [name] :: (searched t root depth (ns ++ [name])).map (name :: ·)

section

variable (ht : t.WellNamed) (hroot : Path.isAbsolute root)

include ht hroot

theorem hasDir_of_mem_entered (hns : ∀ name ∈ ns, Path.IsName name) (hdir : t.hasDir (Path.below root ns))
    (h : name ∈ entered t root ns) :
    (∀ n ∈ ns ++ [name], Path.IsName n) ∧ t.hasDir (Path.below root (ns ++ [name])) := by
  obtain ⟨hname, -, hbelow⟩ := (mem_entered_iff ht hroot hns hdir).1 h
  exact ⟨List.forall_mem_append.2 ⟨hns, List.forall_mem_singleton.2 hname⟩, hbelow⟩

/-- The search comes to every directory that is not too deep and not below one that it passes over. -/
theorem mem_searched_iff (depth : Nat) (hns : ∀ name ∈ ns, Path.IsName name) (hdir : t.hasDir (Path.below root ns)) :
    rest ∈ searched t root depth ns ↔ rest ≠ [] ∧ rest.length ≤ depth ∧
      (∀ name ∈ rest, Path.IsName name ∧ isSkipped name = false) ∧ t.hasDir (Path.below root (ns ++ rest)) := by
  induction depth generalizing ns rest with
  | zero =>
    refine ⟨fun h => absurd h List.not_mem_nil, fun ⟨hne, hlen, _⟩ => ?_⟩
    exact absurd (List.length_eq_zero_iff.1 (Nat.le_zero.1 hlen)) hne
  | succ depth ih =>
    simp only [searched, List.mem_flatMap, List.mem_cons, List.mem_map]
    constructor
    · rintro ⟨name, hname, rfl | ⟨rest', hrest, rfl⟩⟩
      · obtain ⟨hlegal, hskip, hbelow⟩ := (mem_entered_iff ht hroot hns hdir).1 hname
        exact ⟨by simp, by simp, by simp [hlegal, hskip], hbelow⟩
      · obtain ⟨hlegal, hskip, -⟩ := (mem_entered_iff ht hroot hns hdir).1 hname
        obtain ⟨hns', hdir'⟩ := hasDir_of_mem_entered ht hroot hns hdir hname
        obtain ⟨-, hlen, hnames, hbelow⟩ := (ih hns' hdir').1 hrest
        rw [← List.append_cons] at hbelow
        exact ⟨by simp, Nat.succ_le_succ hlen, List.forall_mem_cons.2 ⟨⟨hlegal, hskip⟩, hnames⟩, hbelow⟩
    · rintro ⟨hne, hlen, hnames, hbelow⟩
      obtain ⟨name, rest, rfl⟩ := List.exists_cons_of_ne_nil hne
      obtain ⟨⟨hlegal, hskip⟩, hnames⟩ := List.forall_mem_cons.1 hnames
      rw [List.append_cons] at hbelow
      have hns' : ∀ n ∈ ns ++ [name], Path.IsName n :=
        List.forall_mem_append.2 ⟨hns, List.forall_mem_singleton.2 hlegal⟩
      have hdir' := hasDir_of_append hroot
        (List.forall_mem_append.2 ⟨hns', fun n hn => (hnames n hn).1⟩) hbelow
      refine ⟨name, (mem_entered_iff ht hroot hns hdir).2 ⟨hlegal, hskip, hdir'⟩, ?_⟩
      by_cases hrest : rest = []
      · exact .inl (by rw [hrest])
      · exact .inr ⟨rest, (ih hns' hdir').2 ⟨hrest, Nat.le_of_succ_le_succ hlen, hnames, hbelow⟩, rfl⟩

/-- The search goes in ascending order, name by name. -/
theorem pairwise_searched (depth : Nat) (hns : ∀ name ∈ ns, Path.IsName name) (hdir : t.hasDir (Path.below root ns)) :
    (searched t root depth ns).Pairwise (· < ·) := by
  induction depth generalizing ns with
  | zero => exact .nil
  | succ depth ih =>
    refine List.pairwise_flatMap.2 ⟨fun name hname => List.pairwise_cons.2 ⟨fun path hpath => ?_, ?_⟩, ?_⟩
    · obtain ⟨hns', hdir'⟩ := hasDir_of_mem_entered ht hroot hns hdir hname
      obtain ⟨rest, hrest, rfl⟩ := List.mem_map.1 hpath
      obtain ⟨n, rest, rfl⟩ := List.exists_cons_of_ne_nil ((mem_searched_iff ht hroot depth hns' hdir').1 hrest).1
      exact List.cons_lt_cons_iff.2 (.inr ⟨rfl, .nil⟩)
    · obtain ⟨hns', hdir'⟩ := hasDir_of_mem_entered ht hroot hns hdir hname
      exact List.pairwise_map.2 ((ih hns' hdir').imp fun h => List.cons_lt_cons_iff.2 (.inr ⟨rfl, h⟩))
    · refine (pairwise_entered ht hroot hns hdir).imp fun {a b} hab x hx y hy => ?_
      have hhead : ∀ {name : String} {path : List String},
          path ∈ [name] :: (searched t root depth (ns ++ [name])).map (name :: ·) → ∃ rest, path = name :: rest := by
        intro name path hpath
        rcases List.mem_cons.1 hpath with rfl | hpath
        · exact ⟨[], rfl⟩
        · obtain ⟨rest, -, rfl⟩ := List.mem_map.1 hpath
          exact ⟨rest, rfl⟩
      obtain ⟨_, rfl⟩ := hhead hx
      obtain ⟨_, rfl⟩ := hhead hy
      exact List.cons_lt_cons_iff.2 (.inl hab)

/-- The candidates are the directories that are searched, in the order of the search. -/
theorem candidates_eq (depth : Nat) (hns : ∀ name ∈ ns, Path.IsName name) (hdir : t.hasDir (Path.below root ns)) :
    candidates t root depth (Path.ofNames ns) =
      .ok ((searched t root depth ns).map fun rest => spelled (Path.ofNames (ns ++ rest))) := by
  induction depth generalizing ns with
  | zero => rfl
  | succ depth ih =>
    have htext : (if (Path.ofNames ns).isEmpty then root else Path.join root (Path.ofNames ns)) =
        Path.below root ns := by
      by_cases hne : ns = []
      · subst hne
        rfl
      · have hempty := mt (Path.ofNames_eq_empty_iff hns).1 hne
        rw [if_neg (by simpa using hempty), Path.join_ofNames (ne_empty_of_isAbsolute hroot) hns hne]
    have hnext : ∀ name, (if (Path.ofNames ns).isEmpty then name else Path.ofNames ns ++ "/" ++ name) =
        Path.ofNames (ns ++ [name]) := by
      intro name
      by_cases hne : ns = []
      · subst hne
        exact (String.intercalate_singleton ..).symm
      · have hempty := mt (Path.ofNames_eq_empty_iff hns).1 hne
        rw [if_neg (by simpa using hempty), Path.ofNames_concat hne]
    obtain ⟨names, hsubdirs, hentered⟩ := exists_subdirs hdir
    have hbelow : ∀ name ∈ entered t root ns, candidates t root depth (Path.ofNames (ns ++ [name])) =
        .ok ((searched t root depth (ns ++ [name])).map fun rest => spelled (Path.ofNames (ns ++ [name] ++ rest))) :=
      fun name hname =>
        have hname := hasDir_of_mem_entered ht hroot hns hdir hname
        ih hname.1 hname.2
    unfold candidates
    dsimp only
    rw [htext, hsubdirs]
    dsimp only
    rw [← hentered]
    refine except_bind_eq_ok.2 ⟨(entered t root ns).map fun name => spelled (Path.ofNames (ns ++ [name])) ::
      (searched t root depth (ns ++ [name])).map fun rest => spelled (Path.ofNames (ns ++ [name] ++ rest)), ?_, ?_⟩
    · rw [except_mapM_eq_ok_iff, List.forall₂_map_right_iff, List.forall₂_same]
      intro name hname
      rw [hnext]
      exact except_bind_eq_ok.2 ⟨_, hbelow name hname, rfl⟩
    · simp only [searched, List.flatMap_def, List.map_flatten, List.map_map, List.map_cons, Function.comp_def,
        List.append_assoc, List.singleton_append]
      rfl

end

/-! ### What is discovered -/

/-- The names lead from the top to a directory that is searched. -/
structure Searched (t : Tree) (root : String) (names : List String) : Prop where
  ne_nil : names ≠ []
  near : names.length ≤ 8
  allowed : ∀ name ∈ names, Path.IsName name ∧ name.toList.head? ≠ some '.' ∧ name ≠ "node_modules"
  isDir : t.hasDir (Path.join root (Path.ofNames names))

/-- A plain glob of a member list matches a path, and no negated one does. -/
def Chosen (patterns : List String) (path : String) : Prop :=
  (∃ p ∈ patterns, ∃ g, memberGlob p = .ok (false, g) ∧ g.settles (Text.encode path)) ∧
    ∀ p ∈ patterns, ∀ g, memberGlob p = .ok (true, g) → g.settles (Text.encode path) = false

/-- The members are the first of each name among the directories that are searched, that the globs choose by a spelling
of their paths, and that have a manifest where that spelling says, in ascending order, name by name. -/
def Discovered (t : Tree) (root : String) (patterns : List String) (spell : String → String)
    (members : List Member) : Prop :=
  ∃ (dirs : List (List String)) (all : List Member), dirs.Pairwise (· < ·) ∧
    (∀ names, names ∈ dirs ↔ Searched t root names ∧ Chosen patterns (spell (Path.ofNames names)) ∧
      t.hasFile (Path.join (Path.join root (spell (Path.ofNames names))) Manifest.fileName)) ∧
    List.Forall₂ (fun names m => ∃ manifest,
      Manifest.read t (Path.join root (spell (Path.ofNames names))) = .ok (some manifest) ∧
      m = memberOf t root (spell (Path.ofNames names)) manifest) dirs all ∧
    members = all.eraseDupsBy fun m m' => m.name = m'.name

theorem selects_iff {patterns : List String} {globs : MemberGlobs} (h : MemberGlobs.ofPatterns patterns = .ok globs)
    (path : String) : globs.selects path ↔ Chosen patterns path := by
  obtain ⟨gs, hgs, hglobs⟩ := except_bind_eq_ok.1 h
  obtain rfl := Except.ok.inj hglobs
  simp only [MemberGlobs.selects, Glob.anyMatches, Chosen, Bool.and_eq_true, Bool.not_eq_true', List.any_eq_true,
    List.any_eq_false, List.mem_map, List.mem_filter, except_mem_iff_of_mapM hgs]
  constructor
  · rintro ⟨⟨g, ⟨⟨negated, g⟩, ⟨⟨p, hp, hg⟩, hneg⟩, rfl⟩, hmatch⟩, hnone⟩
    obtain rfl : negated = false := by simpa using hneg
    refine ⟨⟨p, hp, g, hg, hmatch⟩, fun p hp g hg => ?_⟩
    exact Bool.eq_false_of_not_eq_true (hnone g ⟨(true, g), ⟨⟨p, hp, hg⟩, rfl⟩, rfl⟩)
  · rintro ⟨⟨p, hp, g, hg, hmatch⟩, hnone⟩
    refine ⟨⟨g, ⟨(false, g), ⟨⟨p, hp, hg⟩, rfl⟩, rfl⟩, hmatch⟩, ?_⟩
    rintro g ⟨⟨negated, g⟩, ⟨⟨p, hp, hg⟩, rfl⟩, rfl⟩
    exact Bool.not_eq_true _ ▸ hnone p hp g hg

theorem mem_searched_top_iff (ht : t.WellNamed) (hroot : Path.isAbsolute root) (hdir : t.hasDir root)
    {names : List String} : names ∈ searched t root maxDepth [] ↔ Searched t root names := by
  rw [mem_searched_iff ht hroot maxDepth (fun _ hname => absurd hname List.not_mem_nil) hdir, List.nil_append]
  simp only [isSkipped_eq_false_iff]
  constructor
  · rintro ⟨hne, hlen, hnames, hbelow⟩
    rw [← Path.join_ofNames (ne_empty_of_isAbsolute hroot) (fun name hname => (hnames name hname).1) hne] at hbelow
    exact ⟨hne, hlen, hnames, hbelow⟩
  · rintro ⟨hne, hlen, hnames, hbelow⟩
    rw [Path.join_ofNames (ne_empty_of_isAbsolute hroot) (fun name hname => (hnames name hname).1) hne] at hbelow
    exact ⟨hne, hlen, hnames, hbelow⟩

theorem isSome_found? {globs : MemberGlobs} {rel : String} (h : Readable t root globs rel) :
    (found? t root globs rel).isSome =
      (globs.selects rel && t.hasFile (Path.join (Path.join root rel) Manifest.fileName)) := by
  unfold found?
  by_cases hsel : globs.selects rel
  · obtain ⟨manifest, hread⟩ := h hsel
    rw [if_pos hsel, hsel, Bool.true_and, ← (Manifest.read_eq_ok_iff.1 hread).1, hread]
    cases manifest <;> rfl
  · rw [if_neg hsel, Bool.eq_false_of_not_eq_true hsel]
    rfl

/-- Elements for which something is found, one by one with what is found. -/
theorem forall₂_filterMap {α β : Type} {f : α → Option β} {p : α → Bool} {as : List α}
    (h : ∀ a ∈ as, (f a).isSome = p a) :
    List.Forall₂ (fun a b => a ∈ as ∧ f a = some b) (as.filter p) (as.filterMap f) := by
  induction as with
  | nil => exact .nil
  | cons a as ih =>
    rw [List.forall_mem_cons] at h
    have hrest := (ih h.2).imp fun a' b hab => And.intro (List.mem_cons_of_mem a hab.1) hab.2
    rw [List.filter_cons, List.filterMap_cons, ← h.1]
    cases hf : f a with
    | none => exact hrest
    | some b => exact .cons ⟨List.mem_cons_self, hf⟩ hrest

theorem spelled_eq_self {path : String} (h : '\\' ∉ path.toList) : spelled path = path := by
  refine String.toList_inj.1 ?_
  rw [spelled, String.toList_map]
  refine (List.map_congr_left fun c hc => if_neg ?_).trans (List.map_id _)
  rintro rfl
  exact h hc

/-- The first of each name are found among the members alone. -/
theorem map_firsts (es : Found) :
    (es.eraseDupsBy sameName).map (·.1) = (es.map (·.1)).eraseDupsBy fun m m' => m.name = m'.name := by
  have key : ∀ found : Found, (List.eraseDupsBy.loop sameName es found).map (·.1) =
      List.eraseDupsBy.loop (fun m m' => m.name = m'.name) (es.map (·.1)) (found.map (·.1)) := by
    induction es with
    | nil => exact fun found => List.map_reverse
    | cons e es ih =>
      intro found
      have hany : (found.map (·.1)).any (fun m => decide (e.1.name = m.name)) = found.any (sameName e) := List.any_map
      rw [List.map_cons, List.eraseDupsBy.loop, List.eraseDupsBy.loop, hany]
      cases found.any (sameName e)
      · exact ih (e :: found)
      · exact ih found
  exact key []

section

variable {patterns : List String} {globs : MemberGlobs}

theorem discovered (ht : t.WellNamed) (hroot : Path.isAbsolute root) (hdir : t.hasDir root)
    (hglobs : MemberGlobs.ofPatterns patterns = .ok globs)
    (hread : ∀ names, Searched t root names → Readable t root globs (spelled (Path.ofNames names)))
    {spell : String → String}
    (hspell : ∀ names, Searched t root names → spell (Path.ofNames names) = spelled (Path.ofNames names)) :
    Discovered t root patterns spell
      (((((searched t root maxDepth []).map fun names => spelled (Path.ofNames names)).filterMap
        (found? t root globs)).eraseDupsBy sameName).map (·.1)) := by
  have hmem {names : List String} : names ∈ searched t root maxDepth [] ↔ Searched t root names :=
    mem_searched_top_iff ht hroot hdir
  have hsome : ∀ names ∈ searched t root maxDepth [],
      ((found? t root globs (spelled (Path.ofNames names))).map (·.1)).isSome =
        (globs.selects (spelled (Path.ofNames names)) &&
          t.hasFile (Path.join (Path.join root (spelled (Path.ofNames names))) Manifest.fileName)) := by
    intro names hnames
    rw [Option.isSome_map, isSome_found? (hread names (hmem.1 hnames))]
  refine ⟨_, _, (pairwise_searched ht hroot maxDepth (fun _ hname => absurd hname List.not_mem_nil) hdir).filter _,
    fun names => ?_, (forall₂_filterMap hsome).imp fun names m hm => ?_, ?_⟩
  · rw [List.mem_filter, hmem, Bool.and_eq_true, selects_iff hglobs]
    exact and_congr_right fun hnames => by rw [hspell names hnames]
  · obtain ⟨hnames, hfound⟩ := hm
    obtain ⟨e, he, rfl⟩ := Option.map_eq_some_iff.1 hfound
    obtain ⟨-, hmanifest, hmember⟩ := found?_eq_some_iff.1 he
    rw [hspell names (hmem.1 hnames)]
    exact ⟨e.2, hmanifest, hmember⟩
  · rw [map_firsts, List.map_filterMap, List.filterMap_map]
    rfl

end

end Discovery

open Discovery in
/-- Every directory that is searched, whose path the globs choose and that has a manifest is a member, unless a
directory before it has the same name, and there are no other members.  The paths are looked at with slashes for
backslashes; where no directory has a backslash in its path, they are the paths of the directories, and a member's path
leads to the same place as the names of its directory do from the top. -/
theorem Workspace.load_discovers {t : Tree} {cwd place : List String} {configured : Option (List String)}
    {path root : String} {entries : List (String × Node)} {patterns : List String} {globs : MemberGlobs}
    (ht : t.WellNamed) (hplace : t.resolve cwd path = .ok (place, .dir entries))
    (hroot : root = Path.ofComponents ("/" :: place)) (htop : t.hasDir root)
    (hpatterns : globsOf t configured root = .ok patterns) (hglobs : MemberGlobs.ofPatterns patterns = .ok globs)
    (hread : ∀ names, Searched t root names → Chosen patterns (spelled (Path.ofNames names)) →
      ∃ manifest, Manifest.read t (Path.join root (spelled (Path.ofNames names))) = .ok manifest) :
    ∃ w, (Workspace.load t cwd configured path).run.value = .ok w ∧ w.root = root ∧
      Discovered t root patterns spelled w.members ∧
      ((∀ names, Searched t root names → '\\' ∉ (Path.ofNames names).toList) →
        Discovered t root patterns id w.members ∧
        ∀ m ∈ w.members, ∃ names q es, Searched t root names ∧ m.path = Path.ofNames names ∧
          t.resolve [] m.dir = .ok (q, .dir es) ∧ t.Leads Tree.maxLinks place names q (.dir es)) := by
  have habsolute : Path.isAbsolute root := hroot ▸ Path.isAbsolute_ofComponents place
  have hnil : ∀ name ∈ ([] : List String), Path.IsName name := fun _ hname => absurd hname List.not_mem_nil
  have hmem {names : List String} : names ∈ searched t root maxDepth [] ↔ Searched t root names :=
    mem_searched_top_iff ht habsolute htop
  have hcandidates := candidates_eq ht habsolute maxDepth hnil htop
  have hreadable : ∀ names, Searched t root names → Readable t root globs (spelled (Path.ofNames names)) :=
    fun names hnames hsel => hread names hnames ((selects_iff hglobs _).1 hsel)
  refine ⟨_, load_eq_ok_iff.2 ⟨root, patterns, globs, _, ?_, hpatterns, hglobs, hcandidates, ?_, rfl⟩, rfl,
    discovered ht habsolute htop hglobs hreadable fun _ _ => rfl, fun hplain => ⟨discovered ht habsolute htop hglobs
    hreadable fun names hnames => (spelled_eq_self (hplain names hnames)).symm, fun m hm => ?_⟩⟩
  · rw [Tree.canonical, hplace, hroot]
  · exact List.forall_mem_map.2 fun names hnames => hreadable names (hmem.1 hnames)
  · obtain ⟨e, he, rfl⟩ := List.mem_map.1 hm
    obtain ⟨rel, hrel, hfound⟩ := List.mem_filterMap.1 (mem_of_mem_firsts he)
    obtain ⟨names, hnames, rfl⟩ := List.mem_map.1 hrel
    rw [List.nil_append, spelled_eq_self (hplain names (hmem.1 hnames))] at hfound
    obtain ⟨-, -, hmember⟩ := found?_eq_some_iff.1 hfound
    have hsearched := hmem.1 hnames
    have hlegal : ∀ name ∈ names, Path.IsName name := fun name hname => (hsearched.allowed name hname).1
    have hplaces : ∀ name ∈ place, Path.IsName name :=
      ht.isName_of_get? (Tree.resolve_eq_dir_iff.1 hplace).2.get?_eq
    obtain ⟨q, es, hresolve⟩ := Tree.hasDir_iff.1 hsearched.isDir
    have hdir : e.1.dir = Path.join root (Path.ofNames names) := congrArg Member.dir hmember
    refine ⟨names, q, es, hsearched, congrArg Member.path hmember, hdir ▸ hresolve, ?_⟩
    rw [Path.join_ofNames (ne_empty_of_isAbsolute habsolute) hlegal hsearched.ne_nil,
      resolve_below_iff habsolute hlegal, hroot, Path.names_ofComponents hplaces] at hresolve
    exact hresolve.2.of_place (Tree.resolve_eq_dir_iff.1 hplace).2.get?_eq fun name hname => (hplaces name hname).2.2.1

open Discovery in
/-- A link to a package is a directory like any other; here it has the name of the package that it leads to. -/
theorem Workspace.load_discovers_linked :
    let package (manifest : String) : Node := .dir [(Manifest.fileName, .file (Text.encode manifest) 0)]
    let t : Tree := .dir [("packages", .dir [("a", package "\x7b\"name\": \"core\"\x7d"), ("again", .link "a" 0),
      ("web", package "\x7b\x7d")])]
    let patterns := ["!packages/old", "./packages/*/"]
    ∃ w, (Workspace.load t [] (some patterns) "/").run.value = .ok w ∧
      w.members.map (fun m => (m.name, m.path)) = [("core", "packages/a"), ("web", "packages/web")] ∧
      Discovered t "/" patterns id w.members := by
  intro package t patterns
  have ht : Tree.WellNamed t := by
    have hfile : ∀ manifest, Tree.WellNamed (package manifest) := fun manifest =>
      Tree.wellNamed_dir (List.pairwise_singleton _ _) (List.forall_mem_singleton.2
        ⟨(by decide : Path.IsName Manifest.fileName), Tree.wellNamed_of_not_isDir rfl⟩)
    refine Tree.wellNamed_dir (List.pairwise_singleton _ _) (List.forall_mem_singleton.2
      ⟨by decide, Tree.wellNamed_dir (by decide) ?_⟩)
    simp only [List.forall_mem_cons, List.not_mem_nil, false_imp_iff, implies_true, and_true, hfile]
    exact ⟨by decide, ⟨by decide, Tree.wellNamed_of_not_isDir rfl⟩, by decide⟩
  have htop : t.hasDir "/" := by decide +kernel
  have hsearched : ∀ names ∈ searched t "/" maxDepth [], '\\' ∉ (Path.ofNames names).toList ∧
      (Manifest.read t (Path.join "/" (spelled (Path.ofNames names)))).toOption.isSome := by
    decide +kernel
  have hmem {names : List String} : names ∈ searched t "/" maxDepth [] ↔ Searched t "/" names :=
    mem_searched_top_iff ht rfl htop
  have hglobs : (MemberGlobs.ofPatterns patterns).toOption.isSome := by decide +kernel
  have hpaths : ((Workspace.load t [] (some patterns) "/").run.value.toOption.map fun w =>
      w.members.map fun m => (m.name, m.path)) = some [("core", "packages/a"), ("web", "packages/web")] := by
    decide +kernel
  obtain ⟨globs, hglobs⟩ := Option.isSome_iff_exists.1 hglobs
  have hplace : t.resolve [] "/" = .ok ([], t) := rfl
  have hpatterns : globsOf t (some patterns) "/" = .ok patterns := rfl
  obtain ⟨w, hw, -, -, hplain⟩ := Workspace.load_discovers ht hplace rfl htop hpatterns
    (except_toOption_eq_some.1 hglobs) fun names hnames _ =>
      let ⟨manifest, h⟩ := Option.isSome_iff_exists.1 (hsearched names (hmem.2 hnames)).2
      ⟨manifest, except_toOption_eq_some.1 h⟩
  rw [hw] at hpaths
  exact ⟨w, hw, Option.some.inj hpaths, (hplain fun names hnames => (hsearched names (hmem.2 hnames)).1).1⟩

open Discovery in
/-- A package in a directory with a backslash in its name is no member. -/
theorem Workspace.load_discovers_backslash :
    let t : Tree := .dir [("packages", .dir [("a\\b", .dir [(Manifest.fileName,
      .file (Text.encode "\x7b\"name\": \"x\"\x7d") 0)])])]
    t.WellNamed ∧ ∃ w, (Workspace.load t [] (some ["packages/*"]) "/").run.value = .ok w ∧ w.members = [] ∧
      ¬Discovered t "/" ["packages/*"] id w.members := by
  intro t
  have ht : Tree.WellNamed t := by
    refine Tree.wellNamed_dir (List.pairwise_singleton _ _) (List.forall_mem_singleton.2 ⟨by decide, ?_⟩)
    refine Tree.wellNamed_dir (List.pairwise_singleton _ _) (List.forall_mem_singleton.2 ⟨by decide, ?_⟩)
    exact Tree.wellNamed_dir (List.pairwise_singleton _ _) (List.forall_mem_singleton.2
      ⟨by decide, Tree.wellNamed_of_not_isDir rfl⟩)
  have hmembers : ((Workspace.load t [] (some ["packages/*"]) "/").run.value.toOption.map (·.members)) = some [] := by
    decide +kernel
  obtain ⟨w, hw, hnone⟩ := Option.map_eq_some_iff.1 hmembers
  refine ⟨ht, w, except_toOption_eq_some.1 hw, hnone, ?_⟩
  rintro ⟨dirs, all, -, hdirs, hall, hfirsts⟩
  -- the claim finds a directory, but nothing is first among no members
  have hselects : (MemberGlobs.ofPatterns ["packages/*"]).toOption.any (·.selects "packages/a\\b") := by decide +kernel
  obtain ⟨globs, hglobs, hsel⟩ := (Option.any_eq_true _ _).1 hselects
  have hmem : ["packages", "a\\b"] ∈ dirs := by
    refine (hdirs _).2 ⟨⟨by simp, by simp, by decide, by decide +kernel⟩, ?_, by decide +kernel⟩
    exact (selects_iff (except_toOption_eq_some.1 hglobs) _).1 hsel
  cases hall with
  | nil => exact nomatch hmem
  | cons =>
    rw [hnone, List.eraseDupsBy_cons] at hfirsts
    exact nomatch hfirsts

end ScriptRunner
