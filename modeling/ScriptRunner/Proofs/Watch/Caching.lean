import Mathlib.Data.List.Chain
import ScriptRunner.Proofs.Watch.Outside
import ScriptRunner.Proofs.Watch.Pruning

/-!
# Cached digests

A scan with digests keeps the digest of a file whose time and length are those of the snapshot before.  `found` has the
nodes that a scan comes upon; the scan stamps each of them (`get?_take_eq`), and only the digests of regular files look
at the cache.  Let files of one path, time and length have one content in all trees that are scanned (`Steady`).  Then a
snapshot that was taken without a cache is good as a cache for the next tree (`take_cached`), and by induction every
snapshot of a sequence is the one that is taken without a cache (`takeAll_eq_map`).

A watch always has the snapshot before as the cache of a scan (`Path.takings_eq`), also when changes have settled.  So
what it compares are contents, and a regular file counts as changed only when its content is another (`run_cached`).
-/

namespace ScriptRunner

/-! ### What a scan comes upon -/

namespace Snapshot

mutual

/-- The nodes that a walk comes upon at `rel` below a member's directory `place`, without the directories. -/
def nodesOf (o : ScanOptions) (places : List (List String)) (place rel : List String) :
    Node → List (List String × Node)
  | .dir entries =>
    if places.contains (place ++ rel) || o.excludesDir rel then []
    else nodesIn o places place rel entries
  | n => if o.excludes rel then [] else [(place ++ rel, n)]

/-- The nodes that a walk comes upon in a directory at `rel`. -/
def nodesIn (o : ScanOptions) (places : List (List String)) (place rel : List String) :
    List (String × Node) → List (List String × Node)
  | [] => []
  | e :: es => nodesOf o places place (rel ++ [e.1]) e.2 ++ nodesIn o places place rel es

end

/-- The nodes below the directory of a member, if it is one. -/
def nodesOfMember (t : Tree) (o : ScanOptions) (places : List (List String)) (m : Member) : List (List String × Node) :=
  match t.resolve [] m.dir with
  | .ok (_, .dir entries) => nodesIn o places m.place [] entries
  | _ => []

/-- The nodes that a scan comes upon, by their paths. -/
def found (t : Tree) (members : List Member) (o : ScanOptions) : SortedMap (List String) Node :=
  SortedMap.ofList (members.flatMap (nodesOfMember t o (members.map Member.place)))

variable {t t' t'' : Tree} {members : List Member} {o : ScanOptions} {path : List String} {n n' : Node}

mutual

theorem stampsOf_eq (s : Scan) (place : List String) : ∀ (rel : List String) (n : Node),
    stampsOf s place rel n =
      (nodesOf s.options s.places place rel n).map fun e => (e.1, stampOf s.options s.previous e.1 e.2)
  | rel, .dir entries => by
    unfold stampsOf nodesOf
    split
    · rfl
    · exact stampsIn_eq s place rel entries
  | rel, .file _ _ | rel, .link _ _ | rel, .device _ => by
    unfold stampsOf nodesOf
    split <;> rfl

theorem stampsIn_eq (s : Scan) (place : List String) : ∀ (rel : List String) (entries : List (String × Node)),
    stampsIn s place rel entries =
      (nodesIn s.options s.places place rel entries).map fun e => (e.1, stampOf s.options s.previous e.1 e.2)
  | rel, [] => by
    unfold stampsIn nodesIn
    rfl
  | rel, (name, n) :: es => by
    unfold stampsIn nodesIn
    rw [List.map_append, stampsOf_eq s place (rel ++ [name]) n, stampsIn_eq s place rel es]

end

/-- A scan stamps what it comes upon. -/
theorem get?_take_eq (t : Tree) (members : List Member) (o : ScanOptions) (previous : Option Snapshot)
    (path : List String) :
    (take t members o previous).value.get? path = ((found t members o).get? path).map (stampOf o previous path) := by
  have hmember : ∀ m, (ofMember t ⟨o, members.map Member.place, previous⟩ m).value =
      (nodesOfMember t o (members.map Member.place) m).map fun e => (e.1, stampOf o previous e.1 e.2) := by
    intro m
    unfold ofMember nodesOfMember
    cases t.resolve [] m.dir with
    | error => rfl
    | ok e =>
      obtain ⟨d, n⟩ := e
      cases n with
      | dir entries => exact stampsIn_eq _ _ _ _
      | file | link | device => rfl
  have htake : (take t members o previous).value = SortedMap.ofList
      ((members.flatMap (nodesOfMember t o (members.map Member.place))).map fun e =>
        (e.1, stampOf o previous e.1 e.2)) := by
    have hflat : (take t members o previous).value = SortedMap.ofList
        (members.mapM (ofMember t ⟨o, members.map Member.place, previous⟩)).value.flatten := rfl
    rw [hflat, Logged.value_mapM, ← List.flatMap_def, List.map_flatMap, funext hmember]
  rw [htake, SortedMap.get?_ofList_map]
  rfl

/-! ### Scans with a cache -/

/-- A scan that takes no digests over from a snapshot before. -/
def plain (members : List Member) (o : ScanOptions) (t : Tree) : Snapshot := (take t members o none).value

theorem get?_plain : (plain members o t).get? path = ((found t members o).get? path).map (stampOf o none path) :=
  get?_take_eq t members o none path

theorem stampOf_file (previous : Option Snapshot) (data : List UInt8) (modified : Nat) :
    stampOf o previous path (.file data modified) = ⟨modified, data.length, if o.useHash then
      (reused? previous path ⟨modified, data.length, none⟩).or (some (Digest.hex data)) else none⟩ := by
  unfold stampOf
  cases o.useHash <;> rfl

/-- Where scans of some trees come upon a regular file of one path with one time and length, it has one content. -/
def Steady (members : List Member) (o : ScanOptions) (trees : List Tree) : Prop :=
  ∀ t ∈ trees, ∀ t' ∈ trees, ∀ path data data' modified, (found t members o).get? path = some (.file data modified) →
    (found t' members o).get? path = some (.file data' modified) → data.length = data'.length → data = data'

/-- The snapshots of some trees, each scan with the snapshot before as its cache. -/
def takeAll (members : List Member) (o : ScanOptions) : Option Snapshot → List Tree → List Snapshot
  | _, [] => []
  | previous, t :: ts =>
    let s := (take t members o previous).value
    s :: takeAll members o (some s) ts

theorem Steady.subset {trees trees' : List Tree} (h : Steady members o trees') (hsub : trees ⊆ trees') :
    Steady members o trees :=
  fun t ht t' ht' => h t (hsub ht) t' (hsub ht')

/-- A digest in a plain snapshot is that of a regular file. -/
theorem exists_file_of_digest {stamp : Stamp} {digest : String} (hs : (plain members o t).get? path = some stamp)
    (hd : stamp.digest = some digest) : ∃ data, (found t members o).get? path = some (.file data stamp.modified) ∧
      stamp.length = data.length ∧ digest = Digest.hex data := by
  rw [get?_plain, Option.map_eq_some_iff] at hs
  obtain ⟨n, hn, rfl⟩ := hs
  cases n with
  | dir | link | device => exact nomatch hd
  | file data modified =>
    rw [stampOf_file] at hd ⊢
    refine ⟨data, hn, rfl, ?_⟩
    dsimp only at hd
    split at hd
    · exact (Option.some.inj hd).symm
    · exact nomatch hd

/-- A plain snapshot of one tree is good as a cache for another. -/
theorem take_cached (h : Steady members o [t', t]) :
    (take t members o (some (plain members o t'))).value = plain members o t := by
  refine SortedMap.ext_get? fun path => ?_
  rw [get?_take_eq, get?_plain]
  refine Option.map_congr fun n hn => ?_
  cases n with
  | dir | link | device => rfl
  | file data modified =>
    rw [stampOf_file, stampOf_file]
    -- what the cache has of a file of this time and length is the digest of the same content
    have hcache : ∀ digest, reused? (some (plain members o t')) path ⟨modified, data.length, none⟩ = some digest →
        digest = Digest.hex data := by
      intro digest hd
      unfold reused? at hd
      split at hd
      · rename_i old hold
        split at hd
        · rename_i hsame
          simp only [Stamp.sameMetadata, Bool.and_eq_true, decide_eq_true_eq] at hsame
          obtain ⟨data', hn', hlength, rfl⟩ := exists_file_of_digest hold hd
          rw [hsame.1] at hn'
          rw [h t' (by simp) t (by simp) path data' data modified hn' hn (hlength.symm.trans hsame.2)]
        · cases hd
      · cases hd
    cases hd : reused? (some (plain members o t')) path ⟨modified, data.length, none⟩ with
    | none => rfl
    | some digest => rw [hcache digest hd]; rfl

/-- Scans with caches are as good as plain ones. -/
theorem takeAll_eq_map {trees : List Tree} (h : Steady members o trees) :
    takeAll members o none trees = trees.map (plain members o) := by
  have key : ∀ (trees : List Tree) (t' : Tree), Steady members o (t' :: trees) →
      takeAll members o (some (plain members o t')) trees = trees.map (plain members o) := by
    intro trees
    induction trees with
    | nil => exact fun _ _ => rfl
    | cons t ts ih =>
      intro t' h
      simp only [takeAll, List.map_cons]
      rw [take_cached (h.subset (by simp)), ih t (h.subset (by simp))]
  cases trees with
  | nil => rfl
  | cons t ts =>
    rw [takeAll, List.map_cons]
    exact congrArg _ (key ts t h)

/-! ### What counts as a change -/

/-- What a scan comes upon belongs to some member. -/
theorem exists_owner_of_found (h : (found t members o).get? path = some n) :
    ∃ m, Member.ownerOf? members path = some m := by
  have hstamp : (plain members o t).get? path = some (stampOf o none path n) := by rw [get?_plain, h, Option.map_some]
  obtain ⟨m, hm, _, entries, -, hmem⟩ := get?_take hstamp
  obtain ⟨name, names, rfl, -⟩ := meets_of_mem_stampsIn [] entries hmem
  exact Member.exists_owner hm (List.prefix_append _ _)

/-- A regular file is modified exactly if the digests of its contents differ, and it is not changed otherwise. -/
theorem modified_iff (hash : o.useHash = true) {data data' : List UInt8} {modified modified' : Nat}
    (h : (found t members o).get? path = some (.file data modified))
    (h' : (found t' members o).get? path = some (.file data' modified')) :
    ((∃ m, ⟨path, .modified, m⟩ ∈ diff members (plain members o t) (plain members o t')) ↔
        Digest.hex data ≠ Digest.hex data') ∧
      ∀ c ∈ diff members (plain members o t) (plain members o t'), c.path = path → c.kind = .modified := by
  have hkind : kindAt? (plain members o t) (plain members o t') path =
      if Digest.hex data = Digest.hex data' then none else some .modified := by
    unfold kindAt? kindOf?
    simp only [get?_plain, h, h', Option.map_some, stampOf_file, if_pos hash, reused?, Option.none_or, Option.bind_none,
      Stamp.sameContent, decide_eq_true_eq]
  simp only [mem_diff_iff, hkind]
  refine ⟨⟨?_, fun hne => ?_⟩, ?_⟩
  · rintro ⟨m, hm, -⟩ heq
    simp [heq] at hm
  · obtain ⟨m, hm⟩ := exists_owner_of_found h
    exact ⟨m, if_neg hne, hm⟩
  · rintro c ⟨hc, -⟩ rfl
    rw [hkind] at hc
    split at hc
    · cases hc
    · exact (Option.some.inj hc).symm

end Snapshot

/-! ### Touches -/

mutual

/-- A node without the times of the regular files in it. -/
def Node.untimed : Node → Node
  | .file data _ => .file data 0
  | .dir entries => .dir (untimedEntries entries)
  | n => n

/-- The entries of a directory without the times of the regular files in them. -/
def Node.untimedEntries : List (String × Node) → List (String × Node)
  | [] => []
  | e :: es => (e.1, e.2.untimed) :: untimedEntries es

end

namespace Snapshot

/-- The members' directories of two trees are the same, but for the times of regular files. -/
def Touched (members : List Member) (t t' : Tree) : Prop :=
  ∀ m ∈ members, (t.resolve [] m.dir).map (·.2.untimed) = (t'.resolve [] m.dir).map (·.2.untimed)

mutual

theorem nodesOf_untimed (o : ScanOptions) (places : List (List String)) (place : List String) :
    ∀ (rel : List String) (n : Node),
      nodesOf o places place rel n.untimed = (nodesOf o places place rel n).map fun e => (e.1, e.2.untimed)
  | rel, .dir entries => by
    rw [Node.untimed]
    unfold nodesOf
    split
    · rfl
    · exact nodesIn_untimed o places place rel entries
  | rel, .file _ _ | rel, .link _ _ | rel, .device _ => by
    unfold Node.untimed nodesOf
    split <;> rfl

theorem nodesIn_untimed (o : ScanOptions) (places : List (List String)) (place : List String) :
    ∀ (rel : List String) (entries : List (String × Node)),
      nodesIn o places place rel (Node.untimedEntries entries) =
        (nodesIn o places place rel entries).map fun e => (e.1, e.2.untimed)
  | rel, [] => by
    unfold Node.untimedEntries nodesIn
    rfl
  | rel, (name, n) :: es => by
    unfold Node.untimedEntries nodesIn
    rw [List.map_append, nodesOf_untimed o places place (rel ++ [name]) n, nodesIn_untimed o places place rel es]

end

/-- What a walk of a member comes upon, from what is at the place of the member. -/
def nodesAt (o : ScanOptions) (places : List (List String)) (place : List String) :
    Except FileFault Node → List (List String × Node)
  | .ok (.dir entries) => nodesIn o places place [] entries
  | _ => []

/-- Scans come upon the same in a tree and a touched one, but for the times of regular files. -/
theorem Touched.found_eq (h : Touched members t t') (path : List String) :
    ((found t members o).get? path).map Node.untimed = ((found t' members o).get? path).map Node.untimed := by
  have hmember : ∀ t m, (nodesOfMember t o (members.map Member.place) m).map (fun e => (e.1, e.2.untimed)) =
      nodesAt o (members.map Member.place) m.place ((t.resolve [] m.dir).map (·.2.untimed)) := by
    intro t m
    unfold nodesOfMember
    cases t.resolve [] m.dir with
    | error => rfl
    | ok e =>
      obtain ⟨d, n⟩ := e
      cases n with
      | dir entries => exact (nodesIn_untimed _ _ _ _ _).symm
      | file | link | device => rfl
  have hlist : (members.flatMap (nodesOfMember t o (members.map Member.place))).map (fun e => (e.1, e.2.untimed)) =
      (members.flatMap (nodesOfMember t' o (members.map Member.place))).map (fun e => (e.1, e.2.untimed)) := by
    rw [List.map_flatMap, List.map_flatMap]
    refine List.flatMap_congr fun m hm => ?_
    rw [hmember, hmember, h m hm]
  unfold found
  rw [← SortedMap.get?_ofList_map fun _ => Node.untimed, ← SortedMap.get?_ofList_map fun _ => Node.untimed, hlist]

/-- Nodes that are the same but for times are regular files of one content, or they have one stamp. -/
theorem stampOf_eq_of_untimed_eq (h : n.untimed = n'.untimed) :
    (∃ data modified modified', n = .file data modified ∧ n' = .file data modified') ∨
      stampOf o none path n = stampOf o none path n' := by
  cases n with
  | file data modified =>
    cases n' with
    | file data' modified' =>
      obtain rfl : data = data' := by simpa [Node.untimed] using h
      exact .inl ⟨data, modified, modified', rfl, rfl⟩
    | dir | link | device => simp [Node.untimed] at h
  | dir entries =>
    cases n' with
    | dir => exact .inr rfl
    | file | link | device => simp [Node.untimed] at h
  | link target modified =>
    cases n' with
    | link target' modified' =>
      obtain ⟨rfl, rfl⟩ : target = target' ∧ modified = modified' := by simpa [Node.untimed] using h
      exact .inr rfl
    | file | dir | device => simp [Node.untimed] at h
  | device name =>
    cases n' with
    | device => exact .inr rfl
    | file | dir | link => simp [Node.untimed] at h

/-- A touch of what a path had before makes no difference to a regular file that it has now. -/
theorem sameContent_file (hash : o.useHash = true) (h : n.untimed = n'.untimed) (data : List UInt8) (modified : Nat) :
    (stampOf o none path n).sameContent (stampOf o none path (.file data modified)) =
      (stampOf o none path n').sameContent (stampOf o none path (.file data modified)) := by
  rcases stampOf_eq_of_untimed_eq h with ⟨before, time, time', rfl, rfl⟩ | heq
  · simp only [stampOf_file, if_pos hash, reused?, Option.bind_none, Option.none_or, Stamp.sameContent]
  · rw [heq]

/-- A touch is no change. -/
theorem Touched.diff_eq_nil (hash : o.useHash = true) (h : Touched members t t') :
    diff members (plain members o t) (plain members o t') = [] := by
  refine diff_eq_nil_iff.2 fun path _ => ?_
  have hfound := h.found_eq (o := o) path
  unfold kindAt? kindOf? SortedMap.contains
  rw [get?_plain, get?_plain]
  cases hn' : (found t' members o).get? path with
  | none =>
    rw [hn', Option.map_none, Option.map_eq_none_iff] at hfound
    simp [hfound]
  | some n' =>
    rw [hn', Option.map_some, Option.map_eq_some_iff] at hfound
    obtain ⟨n, hn, huntimed⟩ := hfound
    have hsame : (stampOf o none path n).sameContent (stampOf o none path n') := by
      rcases stampOf_eq_of_untimed_eq huntimed with ⟨data, modified, modified', rfl, rfl⟩ | heq
      · rw [sameContent_file hash huntimed]
        exact Stamp.sameContent_self _
      · rw [heq]
        exact Stamp.sameContent_self _
    simp [hn, hsame]

/-- A touch masks no change of a regular file that follows it. -/
theorem Touched.mem_diff_iff (hash : o.useHash = true) (h : Touched members t t') {c : Change}
    (hfile : ∀ n, (found t'' members o).get? c.path = some n → n.isFile) :
    c ∈ diff members (plain members o t) (plain members o t'') ↔
      c ∈ diff members (plain members o t') (plain members o t'') := by
  have hfound := h.found_eq (o := o) c.path
  rw [Snapshot.mem_diff_iff, Snapshot.mem_diff_iff]
  suffices hkind : kindAt? (plain members o t) (plain members o t'') c.path =
      kindAt? (plain members o t') (plain members o t'') c.path by rw [hkind]
  unfold kindAt? kindOf? SortedMap.contains
  rw [get?_plain, get?_plain, get?_plain]
  cases hn' : (found t' members o).get? c.path with
  | none =>
    rw [hn', Option.map_none, Option.map_eq_none_iff] at hfound
    rw [hfound]
  | some n' =>
    rw [hn', Option.map_some, Option.map_eq_some_iff] at hfound
    obtain ⟨n, hn, huntimed⟩ := hfound
    rw [hn]
    cases hn'' : (found t'' members o).get? c.path with
    | none => rfl
    | some n'' =>
      cases n'' with
      | file data modified => simp only [Option.map_some, sameContent_file hash huntimed]
      | dir | link | device => exact nomatch hfile _ hn''

end Snapshot

/-! ### Watches with a cache -/

namespace Watcher

/-- The node that a watcher comes upon at a path. -/
def nodeAt? (w : Watcher) (t : Tree) (path : List String) : Option Node :=
  (Snapshot.found t w.members w.options).get? path

/-- A watcher's snapshot of a tree, taken without a cache. -/
def plain (w : Watcher) (t : Tree) : Snapshot := Snapshot.plain w.members w.options t

end Watcher

namespace Watch

open Snapshot

variable {σ : Type} {w : Watcher} {s final : State} {fuel : Nat} {p : Poll} {o : Option State} {polls : List Poll}
  {idled : Bool}

/-- The scans, each with the cache that it was given. -/
def takings (acts : List Act) : List (Option Snapshot × Snapshot) :=
  acts.filterMap fun | .scanned previous s => some (previous, s) | _ => none

/-- The scans are of some trees, one after the other, with whatever caches. -/
def Shows (w : Watcher) (trees : List Tree) (acts : List Act) : Prop :=
  List.Forall₂ (fun t e => e.2 = (take t w.members w.options e.1).value) trees (takings acts)

/-- Every scan of a watch has the snapshot before as its cache. -/
theorem Path.takings_eq (h : Path w fuel s polls idled final) : takings (history polls idled) =
    ((s.baseline :: scans (history polls idled)).map some).zip (scans (history polls idled)) := by
  induction h with
  | out => rfl
  | idle => rfl
  | stopped h =>
    cases h with
    | stopped h => rfl
  | @poll fuel s s' final p polls idled h _ ih =>
    rw [history_cons, scans_append, Poll.scans_acts]
    unfold takings at ih ⊢
    rw [List.filterMap_append, ih]
    cases h with
    | calm | cancelled | rerun => rfl

/-- A poll waits for what has changed since its baseline, and runs a pass for it if it is still there. -/
structure Poll.Reacts (w : Watcher) (p : Poll) : Prop where
  waits : p.stopped.isSome ↔ w.diff p.baseline p.polled ≠ []
  settles : p.settled.isSome ↔ p.stopped = some false
  reruns : p.rerun.isSome ↔ ∃ s ∈ p.settled, w.diff p.baseline s ≠ []
  announced : ∀ r ∈ p.rerun, ∀ s ∈ p.settled,
    r.changes = w.diff p.baseline s ∧ r.plan = w.planFor (w.diff p.baseline s)

theorem Step.reacts (h : Step w s (some p) o) : p.Reacts w := by
  cases h with
  | calm h => exact ⟨by simp [h], by simp, by simp, by simp⟩
  | stopped h => exact ⟨by simp [h], by simp, by simp, by simp⟩
  | cancelled h h' => exact ⟨by simp [h], by simp, by simp [h'], by simp⟩
  | rerun h h' => exact ⟨by simp [h], by simp, by simp [h'], by simp⟩

/-- Every poll reacts, and the passes are counted. -/
theorem Path.reacts (h : Path w fuel s polls idled final) :
    (∀ p ∈ polls, p.Reacts w) ∧ final.passes = s.passes + (reruns polls).length := by
  induction h with
  | out => exact ⟨nofun, rfl⟩
  | idle => exact ⟨nofun, rfl⟩
  | stopped h =>
    refine ⟨fun p hp => List.mem_singleton.1 hp ▸ h.reacts, ?_⟩
    cases h with
    | stopped => rfl
  | poll h _ ih =>
    obtain ⟨hpolls, hpasses⟩ := ih
    refine ⟨List.forall_mem_cons.2 ⟨h.reacts, hpolls⟩, ?_⟩
    rw [hpasses, h.counts.1, reruns_cons, List.length_append, Nat.add_assoc]

/-- The baseline of a poll is the first one or comes from a scan. -/
theorem Path.baseline_mem (h : Path w fuel s polls idled final) (hp : p ∈ polls) :
    p.baseline ∈ s.baseline :: scans (history polls idled) := by
  have hact : .scanned (some p.baseline) p.polled ∈ history polls idled :=
    List.mem_append_left _ (List.mem_flatMap.2 ⟨p, hp, by simp [Poll.acts]⟩)
  have htaking : (some p.baseline, p.polled) ∈ takings (history polls idled) := List.mem_filterMap.2 ⟨_, hact, rfl⟩
  rw [h.takings_eq] at htaking
  exact List.mem_map_of_injective (Option.some_injective _) |>.1 (List.of_mem_zip htaking).1

/-- A watch that is shown some trees scans them as `takeAll` does. -/
theorem Path.eq_takeAll (h : Path w fuel s polls idled final) {trees : List Tree}
    (ht : Shows w trees (history polls idled)) :
    scans (history polls idled) = takeAll w.members w.options (some s.baseline) trees := by
  unfold Shows at ht
  rw [h.takings_eq] at ht
  generalize s.baseline = before, scans (history polls idled) = snapshots at ht
  induction trees generalizing before snapshots with
  | nil =>
    cases snapshots with
    | nil => rfl
    | cons => exact nomatch ht
  | cons t ts ih =>
    cases snapshots with
    | nil => exact nomatch ht
    | cons s ss =>
      obtain ⟨hs, ht⟩ := List.forall₂_cons.1 ht
      rw [takeAll, ← hs, ← ih _ _ ht]

/-- With digests, every scan that has the snapshot before as its cache is as good as one without.  A regular file is
modified exactly if the digests of its contents differ: a touch is no change, and it masks none that follows.  So a
watch that is shown some trees compares their plain snapshots, and touches alone never make it run a pass. -/
theorem run_cached (w : Watcher) (hash : w.options.useHash = true) {first : Tree} {trees : List Tree}
    (hs : Steady w.members w.options (first :: trees)) :
    takeAll w.members w.options none (first :: trees) = (first :: trees).map w.plain ∧
      (∀ t t' path data modified data' modified',
        w.nodeAt? t path = some (.file data modified) → w.nodeAt? t' path = some (.file data' modified') →
          ((∃ m, ⟨path, .modified, m⟩ ∈ w.diff (w.plain t) (w.plain t')) ↔ Digest.hex data ≠ Digest.hex data') ∧
            ∀ c ∈ w.diff (w.plain t) (w.plain t'), c.path = path → c.kind = .modified) ∧
      (∀ t t', Touched w.members t t' → w.diff (w.plain t) (w.plain t') = [] ∧
        ∀ t'' c, (∀ n, w.nodeAt? t'' c.path = some n → n.isFile) →
          (c ∈ w.diff (w.plain t) (w.plain t'') ↔ c ∈ w.diff (w.plain t') (w.plain t''))) ∧
      ∀ {σ : Type} (env : World σ) fuel x, Shows w trees (run env.recorded w fuel (w.plain first) (x, [])).2.2 →
        ∃ polls idled, (run env.recorded w fuel (w.plain first) (x, [])).2.2 = history polls idled ∧
          scans (history polls idled) = trees.map w.plain ∧
          (∀ p ∈ polls, p.Reacts w ∧ ∃ t ∈ first :: trees, p.baseline = w.plain t) ∧
          (run env w fuel (w.plain first) x).1.passes = (reruns polls).length ∧
          ((first :: trees).IsChain (Touched w.members) → reruns polls = []) := by
  have htakeAll := takeAll_eq_map hs
  refine ⟨htakeAll, fun _ _ _ _ _ _ _ h h' => modified_iff hash h h',
    fun _ _ h => ⟨h.diff_eq_nil hash, fun _ _ hfile => h.mem_diff_iff hash hfile⟩, fun env fuel x htrees => ?_⟩
  obtain ⟨polls, idled, hpath, hrecord⟩ := exists_run env w fuel (w.plain first) x
  rw [hrecord] at htrees ⊢
  have hscans : scans (history polls idled) = trees.map w.plain :=
    (hpath.eq_takeAll htrees).trans (List.cons.inj htakeAll).2
  have hseen : w.plain first :: scans (history polls idled) = (first :: trees).map w.plain := by
    rw [hscans, List.map_cons]
  obtain ⟨hreacts, hpasses⟩ := hpath.reacts
  refine ⟨polls, idled, rfl, hscans, fun p hp => ⟨hreacts p hp, ?_⟩, by rw [hpasses, Nat.zero_add], fun htouched => ?_⟩
  · obtain ⟨t, ht, heq⟩ := List.mem_map.1 (hseen ▸ hpath.baseline_mem hp)
    exact ⟨t, ht, heq.symm⟩
  · have hsame : (w.plain first :: scans (history polls idled)).IsChain fun a b => w.diff a b = [] := by
      rw [hseen]
      exact List.isChain_map_of_isChain _ (fun _ _ h => h.diff_eq_nil hash) htouched
    have hsilent := (hpath.silent hsame).2
    rw [hpasses, Nat.zero_add] at hsilent
    exact List.length_eq_zero_iff.1 hsilent

/-- A world that shows some trees, and stops the watch when it has shown them all. -/
def World.showing (members : List Member) (o : ScanOptions) : World (List Tree) where
  idle x := (x.isEmpty, x)
  settle x := (false, x)
  scan previous x := ((take (x.headD (.dir [])) members o previous).value, x.tail)
  note _ x := x
  announce _ _ x := x
  run _ x := ({}, x)

/-- A file is touched, and then it is written to: one pass. -/
theorem run_cached_written :
    let m : Member := ⟨"a", "a", "/a", none, none⟩
    let w : Watcher := ⟨[m], Graph.ofMembers [m] ∅, .flat [m], .all, ⟨[], true⟩⟩
    let tree (data : List UInt8) (modified : Nat) : Tree := .dir [("a", .dir [("f", .file data modified)])]
    let first : Tree := tree [1] 1
    let trees : List Tree := [tree [1] 2, tree [2] 3, tree [2] 3]
    Steady w.members w.options (first :: trees) ∧ Touched w.members first (tree [1] 2) ∧
      ∃ polls idled, scans (history polls idled) = trees.map w.plain ∧
        (∀ p ∈ polls, p.Reacts w) ∧ (reruns polls).length = 1 := by
  intro m w tree first trees
  have hresolve : ∀ data modified, (tree data modified).resolve [] m.dir =
      .ok (["a"], .dir [("f", .file data modified)]) := fun _ _ => by cbv
  have hfound : ∀ {data modified path n}, (found (tree data modified) w.members w.options).get? path = some n →
      n = .file data modified := by
    intro data modified path n hn
    have hnodes : w.members.flatMap (nodesOfMember (tree data modified) w.options (w.members.map Member.place)) =
        [(["/", "a", "f"], .file data modified)] := by
      rw [List.flatMap_singleton]
      unfold nodesOfMember
      rw [hresolve]
      cbv
    rw [found, hnodes] at hn
    exact (Prod.mk.inj (List.mem_singleton.1 (SortedMap.mem_of_get?_ofList hn))).2
  -- the time of the file tells its content
  have hcontent : ∀ t ∈ first :: trees, ∃ modified, t = tree (if modified = 3 then [2] else [1]) modified := by
    simp only [trees, List.forall_mem_cons, List.not_mem_nil, false_implies, implies_true, and_true]
    exact ⟨⟨1, rfl⟩, ⟨2, rfl⟩, ⟨3, rfl⟩, ⟨3, rfl⟩⟩
  have hs : Steady w.members w.options (first :: trees) := by
    intro t ht t' ht' path data data' modified hn hn' _
    obtain ⟨time, rfl⟩ := hcontent t ht
    obtain ⟨time', rfl⟩ := hcontent t' ht'
    obtain ⟨rfl, rfl⟩ := Node.file.inj (hfound hn)
    obtain ⟨rfl, rfl⟩ := Node.file.inj (hfound hn')
    rfl
  let env : World (List Tree) := .showing w.members w.options
  have hacts : Shows w trees (run env.recorded w 5 (w.plain first) (trees, [])).2.2 := by
    unfold Shows
    decide +kernel
  have hpasses : (run env w 5 (w.plain first) trees).1.passes = 1 := by decide +kernel
  obtain ⟨-, -, -, hrun⟩ := run_cached w rfl hs
  obtain ⟨polls, idled, -, hscans, hpolls, hcount, -⟩ := hrun env 5 trees hacts
  refine ⟨hs, ?_, polls, idled, hscans, fun p hp => (hpolls p hp).1, hcount.symm.trans hpasses⟩
  intro m hm
  obtain rfl := List.mem_singleton.1 hm
  rw [hresolve, hresolve]
  cbv

end Watch

end ScriptRunner
