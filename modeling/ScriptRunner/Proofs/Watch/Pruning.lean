import Mathlib
import ScriptRunner.Config.Basic
import ScriptRunner.Proofs.Glob.Cuts
import ScriptRunner.Proofs.Watch.Scan

/-!
# What the excludes leave out

A scan does not enter a directory if some exclude matches it, or matches a made-up name in it, the probe.  So a file is
in the snapshot exactly if no exclude matches the file, one of the directories on the way to it, or the probe in one of
them (`Snapshot.contains_take_iff`).

The probe should stand for everything in its directory.  The excludes leave out no more than they match if and only if
it does (`ScanOptions.prunesOnlyExcluded_iff`), and it need not: an exclude of hidden files matches the probe of every
directory.  It does if every exclude ends in everything below a directory, or in a character that the probe does not end
in (`ScanOptions.prunesOnlyExcluded_of_speaksForAll`), as the default excludes do.
-/

namespace ScriptRunner

/-! ### The way to an entry -/

/-- A directory is passed on the way down to an entry. -/
def OnTheWay (dir rel : List String) : Prop := dir ≠ [] ∧ dir <+: rel ∧ dir ≠ rel

instance {dir rel : List String} : Decidable (OnTheWay dir rel) := inferInstanceAs (Decidable (_ ∧ _ ∧ _))

instance {rel : List String} {p : List String → Prop} [DecidablePred p] : Decidable (∀ dir, OnTheWay dir rel → p dir) :=
  decidable_of_iff (∀ dir ∈ rel.inits, OnTheWay dir rel → p dir)
    ⟨fun h dir hdir => h dir ((List.mem_inits dir rel).2 hdir.2.1) hdir, fun h dir _ => h dir⟩

theorem not_onTheWay_singleton {dir : List String} {name : String} : ¬OnTheWay dir [name] := by
  rintro ⟨hne, hpre, hproper⟩
  cases dir with
  | nil => exact hne rfl
  | cons x dir => simp_all [List.cons_prefix_cons]

theorem onTheWay_cons_iff {dir names : List String} {name : String} (hn : names ≠ []) :
    OnTheWay dir (name :: names) ↔ dir = [name] ∨ ∃ rest, OnTheWay rest names ∧ dir = name :: rest := by
  unfold OnTheWay
  cases dir with
  | nil => simp
  | cons x dir =>
    rw [List.cons_prefix_cons]
    constructor
    · rintro ⟨-, ⟨rfl, hpre⟩, hproper⟩
      by_cases hd : dir = []
      · exact .inl (by rw [hd])
      · exact .inr ⟨dir, ⟨hd, hpre, fun h => hproper (by rw [h])⟩, rfl⟩
    · rintro (h | ⟨rest, ⟨-, hpre, hproper⟩, h⟩)
      · obtain ⟨rfl, rfl⟩ := List.cons.inj h
        exact ⟨List.cons_ne_nil _ _, ⟨rfl, List.nil_prefix⟩, fun h => hn (List.cons.inj h).2.symm⟩
      · obtain ⟨rfl, rfl⟩ := List.cons.inj h
        exact ⟨List.cons_ne_nil _ _, ⟨rfl, hpre⟩, fun h => hproper (List.cons.inj h).2⟩

/-- No exclude matches an entry or a directory on the way to it. -/
structure ScanOptions.Permits (o : ScanOptions) (rel : List String) : Prop where
  entry : o.excludes rel = false
  dirs : ∀ dir, OnTheWay dir rel → o.excludes dir = false

instance {o : ScanOptions} {rel : List String} : Decidable (o.Permits rel) :=
  decidable_of_iff (o.excludes rel = false ∧ ∀ dir, OnTheWay dir rel → o.excludes dir = false)
    ⟨fun h => ⟨h.1, h.2⟩, fun h => ⟨h.entry, h.dirs⟩⟩

namespace Snapshot

variable {s : Scan} {place rel names : List String} {name : String} {path : List String} {stamp : Stamp}

/-- A walk that stands at `rel` meets the entry at the end of some names: no exclude matches the entry, and every
directory on the way is entered. -/
structure Scan.Meets (s : Scan) (place rel names : List String) : Prop where
  kept : s.options.excludes (rel ++ names) = false
  entered : ∀ dir, OnTheWay dir names →
    s.places.contains (place ++ (rel ++ dir)) = false ∧ s.options.excludesDir (rel ++ dir) = false

theorem Scan.meets_singleton_iff : s.Meets place rel [name] ↔ s.options.excludes (rel ++ [name]) = false :=
  ⟨fun h => h.kept, fun h => ⟨h, fun _ hd => absurd hd not_onTheWay_singleton⟩⟩

theorem Scan.meets_cons_iff (hn : names ≠ []) : s.Meets place rel (name :: names) ↔
    (s.places.contains (place ++ (rel ++ [name])) = false ∧ s.options.excludesDir (rel ++ [name]) = false) ∧
      s.Meets place (rel ++ [name]) names := by
  constructor
  · intro h
    refine ⟨h.entered [name] ((onTheWay_cons_iff hn).2 (.inl rfl)), by simpa using h.kept, fun dir hd => ?_⟩
    simpa using h.entered (name :: dir) ((onTheWay_cons_iff hn).2 (.inr ⟨dir, hd, rfl⟩))
  · rintro ⟨hfirst, h⟩
    refine ⟨by simpa using h.kept, fun dir hd => ?_⟩
    rcases (onTheWay_cons_iff hn).1 hd with rfl | ⟨rest, hrest, rfl⟩
    · exact hfirst
    · simpa using h.entered rest hrest

mutual

/-- Every stamp of a walk belongs to an entry that the walk meets. -/
theorem meets_of_mem_stampsOf : ∀ (rel : List String) (name : String) (n : Node),
    (path, stamp) ∈ stampsOf s place (rel ++ [name]) n →
      ∃ names, path = place ++ (rel ++ name :: names) ∧ s.Meets place rel (name :: names)
  | rel, name, .dir entries => by
    intro h
    unfold stampsOf at h
    split at h
    · exact absurd h List.not_mem_nil
    · rename_i hentered
      obtain ⟨name', names, rfl, hmeets⟩ := meets_of_mem_stampsIn (rel ++ [name]) entries h
      refine ⟨name' :: names, by simp, (Scan.meets_cons_iff (List.cons_ne_nil _ _)).2 ⟨?_, hmeets⟩⟩
      simpa using hentered
  | rel, name, .file _ _ | rel, name, .link _ _ | rel, name, .device _ => by
    intro h
    unfold stampsOf at h
    split at h
    · exact absurd h List.not_mem_nil
    · rename_i hkept
      obtain ⟨rfl, -⟩ := Prod.mk.inj (List.mem_singleton.1 h)
      exact ⟨[], rfl, Scan.meets_singleton_iff.2 (by simpa using hkept)⟩

theorem meets_of_mem_stampsIn : ∀ (rel : List String) (entries : List (String × Node)),
    (path, stamp) ∈ stampsIn s place rel entries →
      ∃ name names, path = place ++ (rel ++ name :: names) ∧ s.Meets place rel (name :: names)
  | rel, [] => by simp [stampsIn]
  | rel, (name, n) :: es => by
    intro h
    unfold stampsIn at h
    rcases List.mem_append.1 h with h | h
    · exact ⟨name, meets_of_mem_stampsOf rel name n h⟩
    · exact meets_of_mem_stampsIn rel es h

end

/-- A walk of a directory walks each of its entries. -/
theorem mem_stampsIn {entries : List (String × Node)} {n : Node} {e : List String × Stamp} (hn : (name, n) ∈ entries)
    (he : e ∈ stampsOf s place (rel ++ [name]) n) : e ∈ stampsIn s place rel entries := by
  induction entries with
  | nil => exact absurd hn List.not_mem_nil
  | cons x es ih =>
    unfold stampsIn
    rcases List.mem_cons.1 hn with rfl | hn
    · exact List.mem_append_left _ he
    · exact List.mem_append_right _ (ih hn)

/-- A walk stamps every entry that it meets. -/
theorem mem_stampsIn_of_meets {entries : List (String × Node)} {n : Node}
    (hn : (Node.dir entries).get? (name :: names) = some n) (hdir : n.isDir = false)
    (h : s.Meets place rel (name :: names)) :
    ∃ stamp, (place ++ (rel ++ name :: names), stamp) ∈ stampsIn s place rel entries := by
  induction names generalizing name rel entries with
  | nil =>
    obtain ⟨c, hc, hget⟩ := Option.bind_eq_some_iff.1 hn
    obtain rfl : c = n := Option.some.inj hget
    refine ⟨stampOf s.options s.previous (place ++ (rel ++ [name])) c, mem_stampsIn (Node.mem_of_child? hc) ?_⟩
    unfold stampsOf
    cases c with
    | dir => exact nomatch hdir
    | file | link | device => simp [h.kept]
  | cons name' names ih =>
    obtain ⟨c, hc, hget⟩ := Option.bind_eq_some_iff.1 hn
    obtain ⟨⟨hplace, hentered⟩, hmeets⟩ := (Scan.meets_cons_iff (List.cons_ne_nil _ _)).1 h
    cases c with
    | dir es =>
      obtain ⟨stamp, hstamp⟩ := ih hget hmeets
      refine ⟨stamp, mem_stampsIn (Node.mem_of_child? hc) ?_⟩
      unfold stampsOf
      simp only [hplace, hentered, Bool.or_self, Bool.false_eq_true, if_false]
      simpa using hstamp
    | file | link | device => exact nomatch hget

/-! ### Scans -/

/-- An entry of the member's own: no directory, reached from the member's directory through directories, and held by no
deeper member. -/
structure IsOwn (t : Tree) (members : List Member) (m : Member) (rel : List String) : Prop where
  mem : m ∈ members
  reached : ∃ d entries n, t.resolve [] m.dir = .ok (d, .dir entries) ∧ (Node.dir entries).get? rel = some n ∧
    n.isDir = false
  own : ∀ m' ∈ members, m'.place <+: m.place ++ rel → m'.place <+: m.place

variable {t : Tree} {members : List Member} {m : Member}

theorem IsOwn.ne_nil (h : IsOwn t members m rel) : rel ≠ [] := by
  rintro rfl
  obtain ⟨-, entries, n, -, hn, hdir⟩ := h.reached
  obtain rfl : Node.dir entries = n := Option.some.inj hn
  exact nomatch hdir

/-- Whatever walk meets an entry of a member's own has started in the member's directory. -/
theorem IsOwn.place_eq (h : IsOwn t members m rel) {m' : Member} (hm' : m' ∈ members) {o : ScanOptions}
    {previous : Option Snapshot} (heq : m.place ++ rel = m'.place ++ names)
    (hmeets : Scan.Meets ⟨o, members.map Member.place, previous⟩ m'.place [] names) : m'.place = m.place := by
  obtain ⟨rest, hrest⟩ := h.own m' hm' (heq ▸ List.prefix_append _ _)
  by_cases hnil : rest = []
  · simpa [hnil] using hrest
  · -- a walk from above would have had to enter the member's directory
    have hnames : names = rest ++ rel := by
      rw [← hrest, List.append_assoc] at heq
      exact (List.append_cancel_left heq).symm
    have hway : OnTheWay rest names :=
      hnames ▸ ⟨hnil, List.prefix_append _ _, fun h' => h.ne_nil (by simpa using h'.symm)⟩
    have hentered := (hmeets.entered rest hway).1
    rw [List.nil_append, hrest] at hentered
    simp [List.mem_map_of_mem h.mem] at hentered

/-- A scan has an entry of a member's own exactly if no exclude matches the entry, a directory on the way to it, or the
probe in one of these directories. -/
theorem contains_take_iff (h : IsOwn t members m rel) (o : ScanOptions) (previous : Option Snapshot) :
    (take t members o previous).value.contains (m.place ++ rel) ↔
      o.Permits rel ∧ ∀ dir, OnTheWay dir rel → o.excludes (dir ++ [ScanOptions.probe]) = false := by
  constructor
  · intro hcontains
    obtain ⟨stamp, hstamp⟩ := Option.isSome_iff_exists.1 hcontains
    obtain ⟨m', hm', _, entries, -, hmem⟩ := get?_take hstamp
    obtain ⟨name, names, heq, hmeets⟩ := meets_of_mem_stampsIn [] entries hmem
    have hplace := h.place_eq hm' heq hmeets
    rw [hplace] at heq
    obtain rfl : rel = name :: names := List.append_cancel_left heq
    have hentered := fun dir hdir => Bool.or_eq_false_iff.1 (hmeets.entered dir hdir).2
    exact ⟨⟨hmeets.kept, fun dir hdir => (hentered dir hdir).1⟩, fun dir hdir => (hentered dir hdir).2⟩
  · rintro ⟨hpermits, hprobe⟩
    obtain ⟨d, entries, n, hd, hn, hdir⟩ := h.reached
    obtain ⟨name, names, rfl⟩ := List.exists_cons_of_ne_nil h.ne_nil
    have hmeets : Scan.Meets ⟨o, members.map Member.place, previous⟩ m.place [] (name :: names) := by
      refine ⟨hpermits.entry, fun dir hway => ⟨?_, Bool.or_eq_false_iff.2 ⟨hpermits.dirs dir hway, hprobe dir hway⟩⟩⟩
      rw [List.nil_append, ← Bool.not_eq_true, List.contains_iff_mem, List.mem_map]
      rintro ⟨m', hm', hplace⟩
      have hdeep := h.own m' hm' (hplace ▸ (List.prefix_append_right_inj _).2 hway.2.1)
      have hle := hdeep.length_le
      rw [hplace, List.length_append] at hle
      exact hway.1 (List.length_eq_zero_iff.1 (by omega))
    obtain ⟨stamp, hstamp⟩ := mem_stampsIn_of_meets hn hdir hmeets
    exact contains_take h.mem hd hstamp

/-! ### Lists of excludes -/

/-- A file at the end of some names. -/
def chain : List String → Node
  | [] => .file [] 0
  | name :: rest => .dir [(name, chain rest)]

theorem get?_chain (rel : List String) : (chain rel).get? rel = some (.file [] 0) := by
  induction rel with
  | nil => rfl
  | cons name rest ih => simp [chain, Node.get?, Node.child?, ih]

/-- Every path is that of an entry of some member's own. -/
theorem exists_isOwn (hne : rel ≠ []) : ∃ t m, IsOwn t [m] m rel := by
  obtain ⟨name, rest, rfl⟩ := List.exists_cons_of_ne_nil hne
  refine ⟨.dir [("m", chain (name :: rest))], ⟨"m", "m", "/m", none, none⟩, by simp, ?_, ?_⟩
  · exact ⟨["m"], [(name, chain rest)], .file [] 0, by rfl, get?_chain (name :: rest), rfl⟩
  · exact fun m' hm' _ => by rw [List.mem_singleton.1 hm']

end Snapshot

/-- The excludes leave out an entry exactly if they match it or a directory on the way to it, for all entries of a
member's own in all trees. -/
def ScanOptions.PrunesOnlyExcluded (o : ScanOptions) : Prop :=
  ∀ t members m rel previous, Snapshot.IsOwn t members m rel →
    ((Snapshot.take t members o previous).value.contains (m.place ++ rel) ↔ o.Permits rel)

namespace ScanOptions

variable {o : ScanOptions}

/-- It is enough that the probe stands for all files of its directory. -/
theorem prunesOnlyExcluded_of_probe
    (h : ∀ rel dir, OnTheWay dir rel → o.Permits rel → o.excludes (dir ++ [probe]) = false) :
    o.PrunesOnlyExcluded := by
  intro t members m rel previous hown
  rw [Snapshot.contains_take_iff hown, and_iff_left_iff_imp]
  exact fun hpermits dir hdir => h rel dir hdir hpermits

/-- The excludes leave out no more than they match if and only if the probe stands for all files of its directory. -/
theorem prunesOnlyExcluded_iff : o.PrunesOnlyExcluded ↔
    ∀ rel dir, OnTheWay dir rel → o.Permits rel → o.excludes (dir ++ [probe]) = false := by
  refine ⟨fun h rel dir hdir hpermits => ?_, prunesOnlyExcluded_of_probe⟩
  have hne : rel ≠ [] := fun hnil => hdir.1 (List.prefix_nil.1 (hnil ▸ hdir.2.1))
  obtain ⟨t, m, hown⟩ := Snapshot.exists_isOwn hne
  exact ((Snapshot.contains_take_iff hown o none).1 ((h t [m] m rel none hown).2 hpermits)).2 dir hdir

/-- An exclude of hidden files, and a file that is not hidden, in a directory that is not hidden. -/
theorem prunesOnlyExcluded_iff_hidden :
    let m : Member := ⟨"a", "a", "/a", none, none⟩
    let entries : List (String × Node) := [("src", .dir [("main.js", .file [] 0)])]
    let t : Tree := .dir [("a", .dir entries)]
    let o : ScanOptions := ⟨[⟨[.leadingDirs, .literal '.', .star], false⟩], false⟩
    ofPatterns ["**/.*"] false = .ok o ∧ Snapshot.IsOwn t [m] m ["src", "main.js"] ∧
      o.Permits ["src", "main.js"] ∧ ¬(Snapshot.take t [m] o none).value.contains (m.place ++ ["src", "main.js"]) := by
  intro m entries t o
  have hd : t.resolve [] m.dir = .ok (["a"], .dir entries) := by cbv
  have hown : Snapshot.IsOwn t [m] m ["src", "main.js"] :=
    ⟨by simp, ⟨_, _, _, hd, by cbv, by cbv⟩, fun m' hm' _ => by rw [List.mem_singleton.1 hm']⟩
  exact ⟨by with_unfolding_all rfl, hown, by decide +kernel, by decide +kernel⟩

/-! ### Excludes of whole directories -/

/-- What the glob says of the probe, it says of every file below the directory: it ends in everything below a directory,
or in a character that the probe does not end in. -/
def speaksForAll (g : Glob) : Bool :=
  match g.tokens.getLast? with
  | some .trailingDirs => true
  | some (.literal c) => !(Glob.charBytes c).isSuffixOf (Text.encode probe)
  | _ => false

theorem excludes_eq_true_iff {rel : List String} :
    o.excludes rel = true ↔ ∃ g ∈ o.exclude, g.settles (Text.encode ("/".intercalate rel)) := by
  simp [excludes, Glob.anyMatches]

theorem encode_path {dir rest : List String} (hd : dir ≠ []) (hr : rest ≠ []) :
    Text.encode ("/".intercalate (dir ++ rest)) =
      Text.encode ("/".intercalate dir) ++ Glob.slash :: Text.encode ("/".intercalate rest) := by
  have hslash : Text.encode "/" = [Glob.slash] := by decide +kernel
  rw [String.intercalate_append_of_ne_nil hd hr, Text.encode_append, Text.encode_append, hslash, List.append_assoc,
    List.singleton_append]

/-- Excludes that speak for all files of a directory leave out no more than they match. -/
theorem prunesOnlyExcluded_of_speaksForAll (h : ∀ g ∈ o.exclude, speaksForAll g) : o.PrunesOnlyExcluded := by
  refine prunesOnlyExcluded_of_probe fun rel dir hdir hpermits => ?_
  rw [← Bool.not_eq_true]
  intro hprobe
  obtain ⟨g, hg, hsettles⟩ := excludes_eq_true_iff.1 hprobe
  obtain ⟨rest, rfl⟩ := hdir.2.1
  have hrest : rest ≠ [] := fun hnil => hdir.2.2 (by rw [hnil, List.append_nil])
  rw [encode_path hdir.1 (List.cons_ne_nil _ _)] at hsettles
  have hmatches := (Bool.and_eq_true_iff.1 hsettles).1
  have hspeaks := h g hg
  unfold speaksForAll at hspeaks
  split at hspeaks
  · -- the exclude matches the entry as well
    rename_i hlast
    have hbelow : g.matchesBytes (Text.encode ("/".intercalate (dir ++ rest))) :=
      encode_path hdir.1 hrest ▸ Glob.matchesBytes_of_name hlast (by decide +kernel) hmatches
    have hexcluded : o.excludes (dir ++ rest) = true :=
      excludes_eq_true_iff.2 ⟨g, hg, by simp [Glob.settles, hbelow, Glob.needsBaseName_eq_false hlast]⟩
    exact nomatch hexcluded.symm.trans hpermits.entry
  · -- the exclude cannot match the probe: a character is no longer than it
    rename_i c hlast
    have hlength : (Glob.charBytes c).length ≤ (Text.encode probe).length := by
      have hsize : c.toString.utf8ByteSize = c.utf8Size := by simp
      have hle : c.utf8Size ≤ 4 := c.utf8Size_le_four
      have hprobe : (Text.encode probe).length = 12 := by decide +kernel
      rw [Glob.charBytes, Text.length_encode, hsize, hprobe]
      omega
    have hsuffix : Glob.charBytes c <:+ Text.encode probe :=
      List.suffix_of_suffix_length_le (Glob.suffix_of_matchesBytes hlast hmatches)
        ((List.suffix_cons _ _).trans (List.suffix_append _ _)) hlength
    simp [List.isSuffixOf_iff_suffix.2 hsuffix] at hspeaks
  · exact nomatch hspeaks

/-- The default excludes leave out no more than they match. -/
theorem prunesOnlyExcluded_default (useHash : Bool) :
    ∃ o, ofPatterns defaultExcludes useHash = .ok o ∧ o.PrunesOnlyExcluded := by
  have hspeak : (ofPatterns defaultExcludes useHash).toOption.map (·.exclude.all speaksForAll) = some true := by
    cases useHash <;> decide +kernel
  cases ho : ofPatterns defaultExcludes useHash with
  | error e => simp [ho, Except.toOption] at hspeak
  | ok o =>
    refine ⟨o, rfl, prunesOnlyExcluded_of_speaksForAll ?_⟩
    simpa [ho, Except.toOption] using hspeak

end ScanOptions

end ScriptRunner
