import ScriptRunner.Proofs.Watch.Outside
import ScriptRunner.Proofs.Watch.Pruning

/-!
# Territories

A walk stops at the directories of other members, and the owner of a path is the deepest member whose directory holds
it.  These are two rules, and they agree: whatever a walk records lies in no other member's directory below the one
that the walk started in (`Snapshot.Records.deepest`), unless it stands for such a directory itself, as a link does.
So no path is recorded by two walks (`Snapshot.Records.unique`), the walk is that of the owner
(`Snapshot.Records.ownerOf?_eq`), and what a snapshot has at a path is what one walk found there, whatever the order of
the walks is (`Snapshot.get?_take_of_records`).
-/

namespace ScriptRunner

/-- Of lists put together, of which all but one are empty, that one is left. -/
private theorem flatMap_eq_of_forall_nil {ι α : Type} {is : List ι} {f : ι → List α} {i : ι} (hn : is.Nodup)
    (hi : i ∈ is) (h : ∀ j ∈ is, j ≠ i → f j = []) : is.flatMap f = f i := by
  induction is with
  | nil => exact absurd hi List.not_mem_nil
  | cons j is ih =>
    obtain ⟨hj, hn⟩ := List.nodup_cons.1 hn
    rw [List.flatMap_cons]
    rcases List.mem_cons.1 hi with rfl | hi
    · have hrest : is.flatMap f = [] := List.flatMap_eq_nil_iff.2 fun k hk =>
        h k (List.mem_cons_of_mem _ hk) fun hki => hj (hki ▸ hk)
      rw [hrest, List.append_nil]
    · have hhead : f j = [] := h j List.mem_cons_self fun hji => hj (hji ▸ hi)
      rw [hhead, List.nil_append, ih hn hi fun k hk => h k (List.mem_cons_of_mem _ hk)]

namespace Snapshot

variable {t t' : Tree} {members members' : List Member} {m m' : Member} {o : ScanOptions} {previous : Option Snapshot}
  {path : List String}

/-! ### The walk of a member -/

/-- What the walks of some members look at. -/
def scanOf (members : List Member) (o : ScanOptions) (previous : Option Snapshot) : Scan :=
  ⟨o, members.map Member.place, previous⟩

/-- The walk of a member records a path. -/
def Records (t : Tree) (s : Scan) (m : Member) (path : List String) : Prop :=
  ∃ stamp, (path, stamp) ∈ (ofMember t s m).value

theorem value_take : (take t members o previous).value =
    SortedMap.ofList (members.flatMap fun m => (ofMember t (scanOf members o previous) m).value) := by
  have hflat : (take t members o previous).value =
      SortedMap.ofList (members.mapM (ofMember t (scanOf members o previous))).value.flatten := rfl
  rw [hflat, Logged.value_mapM, ← List.flatMap_def]

theorem contains_take_iff_records : (take t members o previous).value.contains path ↔
    ∃ m ∈ members, Records t (scanOf members o previous) m path := by
  rw [value_take]
  constructor
  · intro h
    obtain ⟨stamp, hstamp⟩ := Option.isSome_iff_exists.1 h
    obtain ⟨m, hm, hmem⟩ := List.mem_flatMap.1 (SortedMap.mem_of_get?_ofList hstamp)
    exact ⟨m, hm, stamp, hmem⟩
  · rintro ⟨m, hm, stamp, hmem⟩
    exact SortedMap.contains_ofList (List.mem_flatMap.2 ⟨m, hm, hmem⟩)

/-- What a walk records is an entry that it meets below the member's directory. -/
theorem Records.meets {s : Scan} (h : Records t s m path) :
    ∃ rel, rel ≠ [] ∧ path = m.place ++ rel ∧ s.Meets m.place [] rel := by
  obtain ⟨stamp, hmem⟩ := h
  unfold ofMember at hmem
  split at hmem
  · exact absurd hmem List.not_mem_nil
  · obtain ⟨name, names, rfl, hmeets⟩ := meets_of_mem_stampsIn [] _ hmem
    exact ⟨name :: names, List.cons_ne_nil _ _, rfl, hmeets⟩
  · exact absurd hmem List.not_mem_nil

/-- A member whose directory holds a recorded path, and is not the path itself, holds the directory that the walk
started in. -/
theorem Records.deepest (h : Records t (scanOf members o previous) m path) (hm' : m' ∈ members)
    (hp : m'.place <+: path) (hne : m'.place ≠ path) : m'.place <+: m.place := by
  obtain ⟨rel, -, rfl, hmeets⟩ := h.meets
  rcases List.prefix_or_prefix_of_prefix hp (List.prefix_append _ _) with habove | ⟨rest, hrest⟩
  · exact habove
  · by_cases hnil : rest = []
    · exact (by simpa [hnil] using hrest : m.place = m'.place) ▸ List.prefix_refl _
    · -- the walk would have had to enter the directory of the other member
      have hway : OnTheWay rest rel := by
        rw [← hrest] at hp hne
        exact ⟨hnil, (List.prefix_append_right_inj _).1 hp, fun heq => hne (by rw [heq])⟩
      have hentered := (hmeets.entered rest hway).1
      rw [List.nil_append, hrest] at hentered
      simp [scanOf, List.mem_map_of_mem hm'] at hentered

/-- No path is recorded by the walks of two members. -/
theorem Records.unique (hn : (members.map Member.place).Nodup) (hm : m ∈ members) (hm' : m' ∈ members)
    (h : Records t (scanOf members o previous) m path) (h' : Records t (scanOf members o previous) m' path) :
    m = m' := by
  have holds : ∀ {x : Member}, Records t (scanOf members o previous) x path → x.place <+: path ∧ x.place ≠ path := by
    intro x hx
    obtain ⟨rel, hrel, rfl, -⟩ := hx.meets
    exact ⟨List.prefix_append _ _, fun heq => hrel (List.self_eq_append_right.1 heq)⟩
  have hplace : m.place = m'.place := Member.place_eq_of_prefix
    (h'.deepest hm (holds h).1 (holds h).2) (h.deepest hm' (holds h').1 (holds h').2)
  exact List.inj_on_of_nodup_map hn hm hm' hplace

/-- The walk that records a path is that of its owner, unless a member's directory has this path. -/
theorem Records.ownerOf?_eq (hn : (members.map Member.place).Nodup) (hm : m ∈ members)
    (h : Records t (scanOf members o previous) m path) (hpath : path ∉ members.map Member.place) :
    Member.ownerOf? members path = some m := by
  refine (Member.ownerOf?_eq_some_iff_of_nodup hn).2 ⟨hm, ?_, fun m' hm' hp => h.deepest hm' hp ?_⟩
  · obtain ⟨rel, -, rfl, -⟩ := h.meets
    exact List.prefix_append _ _
  · exact fun heq => hpath (heq ▸ List.mem_map_of_mem hm')

theorem Records.exists_owner {s : Scan} (hm : m ∈ members) (h : Records t s m path) :
    (Member.ownerOf? members path).isSome := by
  obtain ⟨rel, -, rfl, -⟩ := h.meets
  exact Option.isSome_iff_exists.2 (Member.exists_owner hm (List.prefix_append _ _))

/-! ### The order of the walks -/

section
variable {places places' : List (List String)} {place : List String}

mutual

/-- The order of the members' directories makes no difference to a walk. -/
theorem stampsOf_congr (h : ∀ place, places'.contains place = places.contains place) :
    ∀ (rel : List String) (n : Node),
      stampsOf ⟨o, places', previous⟩ place rel n = stampsOf ⟨o, places, previous⟩ place rel n
  | rel, .dir entries => by
    unfold stampsOf
    rw [h, stampsIn_congr h rel entries]
  | rel, .file _ _ | rel, .link _ _ | rel, .device _ => by
    unfold stampsOf
    rfl

theorem stampsIn_congr (h : ∀ place, places'.contains place = places.contains place) :
    ∀ (rel : List String) (entries : List (String × Node)),
      stampsIn ⟨o, places', previous⟩ place rel entries = stampsIn ⟨o, places, previous⟩ place rel entries
  | rel, [] => by
    unfold stampsIn
    rfl
  | rel, (name, n) :: es => by
    unfold stampsIn
    rw [stampsOf_congr h _ n, stampsIn_congr h rel es]

end

end

theorem value_ofMember_perm (hp : members'.Perm members) (m : Member) :
    (ofMember t (scanOf members' o previous) m).value = (ofMember t (scanOf members o previous) m).value := by
  have hplaces : ∀ place, (members'.map Member.place).contains place = (members.map Member.place).contains place := by
    intro place
    rw [Bool.eq_iff_iff, List.contains_iff_mem, List.contains_iff_mem, (hp.map _).mem_iff]
  unfold ofMember
  split
  · rfl
  · exact stampsIn_congr hplaces _ _
  · rfl

/-- What a snapshot has at a recorded path comes from the walk that records it, and from no other. -/
theorem get?_take_of_records (hn : (members.map Member.place).Nodup) (hm : m ∈ members)
    (h : Records t (scanOf members o previous) m path) : (take t members o previous).value.get? path =
      (((ofMember t (scanOf members o previous) m).value.filter (·.1 = path)).getLast?).map (·.2) := by
  rw [value_take, SortedMap.get?_ofList, List.filter_flatMap,
    flatMap_eq_of_forall_nil hn.of_map hm fun m' hm' hne => ?_]
  refine List.filter_eq_nil_iff.2 fun e he heq => hne ?_
  obtain rfl : e.1 = path := by simpa using heq
  exact Records.unique hn hm' hm ⟨e.2, he⟩ h

/-- Members in another order have the same scan. -/
theorem take_perm (hn : (members.map Member.place).Nodup) (hp : members'.Perm members) :
    (take t members' o previous).value = (take t members o previous).value := by
  have hn' : (members'.map Member.place).Nodup := (hp.map _).nodup_iff.2 hn
  have hrecords : ∀ {m path}, Records t (scanOf members' o previous) m path ↔
      Records t (scanOf members o previous) m path := by
    intro m path
    unfold Records
    rw [value_ofMember_perm hp]
  refine SortedMap.ext_get? fun path => ?_
  by_cases h : ∃ m ∈ members, Records t (scanOf members o previous) m path
  · obtain ⟨m, hm, h⟩ := h
    rw [get?_take_of_records hn hm h, get?_take_of_records hn' (hp.mem_iff.2 hm) (hrecords.2 h), value_ofMember_perm hp]
  · have hnone : (take t members o previous).value.get? path = none := by
      simpa [SortedMap.contains] using mt contains_take_iff_records.1 h
    have hnone' : (take t members' o previous).value.get? path = none := by
      simpa [SortedMap.contains] using mt contains_take_iff_records.1
        (by simpa only [hp.mem_iff, hrecords] using h)
    rw [hnone, hnone']

/-! ### Differences between scans -/

/-- Every difference between two scans is a change. -/
theorem exists_change {o' : ScanOptions} {previous' : Option Snapshot} {kind : ChangeKind}
    (h : kindAt? (take t members o previous).value (take t' members o' previous').value path = some kind) :
    ∃ m, ⟨path, kind, m⟩ ∈ diff members (take t members o previous).value (take t' members o' previous').value := by
  have howner : (Member.ownerOf? members path).isSome := by
    rcases List.mem_append.1 (mem_keys_of_kindAt? (h ▸ Option.some_ne_none kind)) with hpath | hpath
    · obtain ⟨m, hm, hrecords⟩ := contains_take_iff_records.1 (SortedMap.contains_iff_mem_keys.2 hpath)
      exact hrecords.exists_owner hm
    · obtain ⟨m, hm, hrecords⟩ := contains_take_iff_records.1 (SortedMap.contains_iff_mem_keys.2 hpath)
      exact hrecords.exists_owner hm
  obtain ⟨m, hm⟩ := Option.isSome_iff_exists.1 howner
  exact ⟨m, mem_diff_iff.2 ⟨h, hm⟩⟩

/-- Among members with distinct directories, what a scan has is what exactly one walk records.  Unless the path is that
of a member's directory, the walk is that of the owner, and the excludes leave it in, seen from the owner's directory.
Every path of a scan has an owner, every difference between two scans is a change, and members in another order have
the same scan. -/
theorem walks_follow_ownership (hn : (members.map Member.place).Nodup) (t : Tree) (o : ScanOptions)
    (previous : Option Snapshot) :
    (∀ path, (take t members o previous).value.contains path ↔
        ∃! m, m ∈ members ∧ Records t (scanOf members o previous) m path) ∧
      (∀ m ∈ members, ∀ path, Records t (scanOf members o previous) m path → path ∉ members.map Member.place →
        Member.ownerOf? members path = some m ∧ ∃ rel, path = m.place ++ rel ∧ o.Permits rel) ∧
      (∀ path, (take t members o previous).value.contains path → (Member.ownerOf? members path).isSome) ∧
      (∀ t' o' previous' path kind,
        kindAt? (take t members o previous).value (take t' members o' previous').value path = some kind →
          ∃ m, ⟨path, kind, m⟩ ∈
            diff members (take t members o previous).value (take t' members o' previous').value) ∧
      ∀ members', members'.Perm members →
        (take t members' o previous).value = (take t members o previous).value := by
  refine ⟨fun path => ?_, fun m hm path h hpath => ⟨h.ownerOf?_eq hn hm hpath, ?_⟩, fun path h => ?_,
    fun _ _ _ _ _ => exists_change, fun _ => take_perm hn⟩
  · rw [contains_take_iff_records]
    constructor
    · rintro ⟨m, hm, h⟩
      exact ⟨m, ⟨hm, h⟩, fun m' h' => h'.2.unique hn h'.1 hm h⟩
    · rintro ⟨m, ⟨hm, h⟩, -⟩
      exact ⟨m, hm, h⟩
  · obtain ⟨rel, -, rfl, hmeets⟩ := h.meets
    exact ⟨rel, rfl, hmeets.kept, fun dir hdir => (Bool.or_eq_false_iff.1 (hmeets.entered dir hdir).2).1⟩
  · obtain ⟨m, hm, h⟩ := contains_take_iff_records.1 h
    exact h.exists_owner hm

/-- A member below a directory that the member around it leaves out. -/
theorem walks_follow_ownership_below_excluded :
    let outer : Member := ⟨"outer", "outer", "/ws/outer", none, none⟩
    let inner : Member := ⟨"inner", "outer/inner", "/ws/outer/inner", none, none⟩
    let deep : Member := ⟨"deep", "outer/inner/dist/deep", "/ws/outer/inner/dist/deep", none, none⟩
    let dist : Node := .dir [("deep", .dir [("c.js", .file [] 0)]), ("gen.js", .file [] 0)]
    let t : Tree := .dir [("ws", .dir [("outer", .dir [("a.js", .file [] 0),
      ("inner", .dir [("b.js", .file [] 0), ("dist", dist)])])])]
    let o : ScanOptions :=
      ⟨[⟨[.leadingDirs, .literal 'd', .literal 'i', .literal 's', .literal 't', .trailingDirs], false⟩], false⟩
    let path := ["/", "ws", "outer", "inner", "dist", "deep", "c.js"]
    ScanOptions.ofPatterns ["**/dist/**"] false = .ok o ∧ ([deep, outer, inner].map Member.place).Nodup ∧
      (∃ m ∈ [deep, outer, inner], Records t (scanOf [deep, outer, inner] o none) m path ∧
        Member.ownerOf? [deep, outer, inner] path = some m ∧ ∃ rel, path = m.place ++ rel ∧ o.Permits rel) ∧
      (take t [outer, inner, deep] o none).value = (take t [deep, outer, inner] o none).value := by
  intro outer inner deep dist t o path
  have hn : ([deep, outer, inner].map Member.place).Nodup := by decide +kernel
  obtain ⟨hone, howner, -, -, hperm⟩ := walks_follow_ownership hn t o none
  obtain ⟨m, ⟨hm, hrecords⟩, -⟩ := (hone path).1 (by decide +kernel)
  refine ⟨by with_unfolding_all rfl, hn, ⟨m, hm, hrecords, howner m hm path hrecords (by decide +kernel)⟩, ?_⟩
  exact hperm _ (by decide +kernel)

end Snapshot

end ScriptRunner
