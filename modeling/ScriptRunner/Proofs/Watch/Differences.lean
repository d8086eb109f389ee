import Mathlib.Data.List.Sort
import ScriptRunner.Watch.Change

/-!
# Differences between snapshots

`Snapshot.kindAt?` says how one path differs between two snapshots.  The changes from one snapshot to another are the
differences of the paths that members hold (`mem_diff_iff`), in strictly ascending order of the paths
(`diff_ascending`), and so they are known as soon as the differences are (`diff_congr`).  A path differs the other way
round from the new snapshot to the old one (`Differs.reverse`), so the changes back are the changes with created and
deleted exchanged (`diff_reverse`).

`Stamp.sameContent` compares digests where there are two and metadata else, which makes no equivalence in general: it is
reflexive and symmetric (`Stamp.sameContent_comm`), and transitive as long as all stamps have digests or none has
(`Stamp.sameContent_iff`).  What one scan without digests takes is of the second kind (`stamped_take`).
-/

namespace ScriptRunner

/-! ### Stamps -/

namespace Stamp

/-- What counts of a stamp: the digest if the files are read, else everything. -/
def essence (hashed : Bool) (s : Stamp) : Stamp := if hashed then ⟨0, 0, s.digest⟩ else s

theorem sameContent_iff {hashed : Bool} {a b : Stamp} (ha : a.digest.isSome = hashed) (hb : b.digest.isSome = hashed) :
    a.sameContent b ↔ a.essence hashed = b.essence hashed := by
  obtain ⟨ma, la, da⟩ := a
  obtain ⟨mb, lb, db⟩ := b
  subst ha
  cases da <;> cases db <;> simp_all [sameContent, sameMetadata, essence]

theorem sameContent_self (s : Stamp) : s.sameContent s := (sameContent_iff rfl rfl).2 rfl

theorem sameMetadata_comm (a b : Stamp) : a.sameMetadata b = b.sameMetadata a := by
  simp only [sameMetadata, eq_comm]

/-- Comparing is symmetric also for a stamp with a digest and one without. -/
theorem sameContent_comm (a b : Stamp) : a.sameContent b = b.sameContent a := by
  simp only [sameContent]
  cases a.digest <;> cases b.digest <;> simp only [sameMetadata_comm a b, eq_comm]

end Stamp

/-- The kind of a change from the new snapshot back to the old one. -/
def ChangeKind.reverse : ChangeKind → ChangeKind
  | created => deleted
  | modified => modified
  | deleted => created

/-- The change from the new snapshot back to the old one. -/
def Change.reverse (c : Change) : Change := { c with kind := c.kind.reverse }

theorem ChangeKind.reverse_reverse (kind : ChangeKind) : kind.reverse.reverse = kind := by cases kind <;> rfl

theorem Change.reverse_reverse (c : Change) : c.reverse.reverse = c := by
  simp only [reverse, ChangeKind.reverse_reverse]

namespace Snapshot

variable {members : List Member} {old old' new : Snapshot} {path : List String} {c : Change}

/-! ### The difference of one path -/

/-- How a path differs between two snapshots. -/
def kindAt? (old new : Snapshot) (path : List String) : Option ChangeKind :=
  match new.get? path with
  | some stamp => kindOf? old path stamp
  | none => if old.contains path then some .deleted else none

theorem changeAt?_eq_some_iff {kind : ChangeKind} :
    changeAt? members path kind = some c ↔
      path = c.path ∧ kind = c.kind ∧ Member.ownerOf? members path = some c.member := by
  obtain ⟨cpath, ckind, cmember⟩ := c
  simp only [changeAt?, Option.map_eq_some_iff, Change.mk.injEq]
  constructor
  · rintro ⟨m, hm, rfl, rfl, rfl⟩
    exact ⟨rfl, rfl, hm⟩
  · rintro ⟨rfl, rfl, hm⟩
    exact ⟨_, hm, rfl, rfl, rfl⟩

/-- The changes are the differences of the paths that members hold. -/
theorem mem_diff_iff :
    c ∈ diff members old new ↔
      kindAt? old new c.path = some c.kind ∧ Member.ownerOf? members c.path = some c.member := by
  simp only [diff, List.mem_mergeSort, List.mem_append, List.mem_filterMap, List.mem_filter]
  constructor
  · rintro (⟨⟨path, stamp⟩, he, hc⟩ | ⟨⟨path, stamp⟩, ⟨he, hnew⟩, hc⟩)
    · obtain ⟨kind, hk, hc⟩ := Option.bind_eq_some_iff.1 hc
      obtain ⟨rfl, rfl, ho⟩ := changeAt?_eq_some_iff.1 hc
      refine ⟨?_, ho⟩
      rw [kindAt?, SortedMap.get?_eq_some_iff.2 he]
      exact hk
    · obtain ⟨rfl, hk, ho⟩ := changeAt?_eq_some_iff.1 hc
      refine ⟨?_, ho⟩
      have hnone : new.get? c.path = none := by simpa [SortedMap.contains] using hnew
      have hold : old.contains c.path := by simp [SortedMap.contains, SortedMap.get?_eq_some_iff.2 he]
      simp [kindAt?, hnone, hold, hk]
  · rintro ⟨hk, ho⟩
    unfold kindAt? at hk
    split at hk
    · rename_i stamp hstamp
      exact .inl ⟨(c.path, stamp), SortedMap.get?_eq_some_iff.1 hstamp,
        Option.bind_eq_some_iff.2 ⟨_, hk, changeAt?_eq_some_iff.2 ⟨rfl, rfl, ho⟩⟩⟩
    · rename_i hnone
      split at hk
      · rename_i hold
        obtain ⟨stamp, hstamp⟩ := Option.isSome_iff_exists.1 hold
        exact .inr ⟨(c.path, stamp), ⟨SortedMap.get?_eq_some_iff.1 hstamp, by simp [SortedMap.contains, hnone]⟩,
          changeAt?_eq_some_iff.2 ⟨rfl, Option.some.inj hk, ho⟩⟩
      · cases hk

/-! ### The order of the changes -/

/-- The paths of some entries, each taken for one change at most, are as different as the entries. -/
private theorem nodup_paths {entries : List (List String × Stamp)} {f : List String × Stamp → Option Change}
    (h : (entries.map (·.1)).Nodup) (hf : ∀ e c, f e = some c → e.1 = c.path) :
    ((entries.filterMap f).map (·.path)).Nodup := by
  refine List.Nodup.sublist ?_ h
  induction entries with
  | nil => exact List.Sublist.slnil
  | cons e es ih =>
    have ih := ih (List.nodup_cons.1 h).2
    cases hc : f e with
    | none =>
      rw [List.filterMap_cons_none hc]
      exact ih.cons _
    | some c =>
      rw [List.filterMap_cons_some hc, List.map_cons, List.map_cons, hf e c hc]
      exact ih.cons_cons _

theorem nodup_keys (s : Snapshot) : (s.entries.map (·.1)).Nodup :=
  List.pairwise_map.2 (s.ascending.imp fun {_ _} h e => nomatch h.symm.trans (Std.compare_eq_iff_eq.2 e))

/-- The changes are in strictly ascending order of their paths. -/
theorem diff_ascending : (diff members old new).Pairwise fun a b => compare a.path b.path = .lt := by
  have hpresent : ∀ (e : List String × Stamp) c,
      (kindOf? old e.1 e.2).bind (changeAt? members e.1) = some c → e.1 = c.path := by
    intro e c h
    obtain ⟨kind, -, h⟩ := Option.bind_eq_some_iff.1 h
    exact (changeAt?_eq_some_iff.1 h).1
  have hgone : ∀ (e : List String × Stamp) c, changeAt? members e.1 .deleted = some c → e.1 = c.path :=
    fun e c h => (changeAt?_eq_some_iff.1 h).1
  have hnodup : ((diff members old new).map (·.path)).Nodup := by
    refine ((List.mergeSort_perm _ _).map _).nodup_iff.2 ?_
    rw [List.map_append]
    refine List.nodup_append.2 ⟨nodup_paths new.nodup_keys hpresent,
      nodup_paths (old.nodup_keys.sublist (List.filter_sublist.map _)) hgone, ?_⟩
    -- the present paths are in the new snapshot, the others are not
    simp only [List.mem_map, List.mem_filterMap, List.mem_filter]
    rintro _ ⟨c, ⟨⟨path, stamp⟩, he, hc⟩, rfl⟩ _ ⟨c', ⟨e', ⟨-, hnew⟩, hc'⟩, rfl⟩ hpath
    rw [hgone _ _ hc', ← hpath, ← hpresent _ _ hc] at hnew
    simp [SortedMap.contains, SortedMap.get?_eq_some_iff.2 he] at hnew
  have hle : (diff members old new).Pairwise fun a b => (compare a.path b.path).isLE := by
    refine List.pairwise_mergeSort (fun a b c => Std.TransCmp.isLE_trans) (fun a b => ?_) _
    have hswap : compare b.path a.path = (compare a.path b.path).swap := Std.OrientedCmp.eq_swap
    rw [hswap]
    cases compare a.path b.path <;> rfl
  refine hle.imp₂ (fun a b hab hne => ?_) (List.pairwise_map.1 hnodup)
  cases h : compare a.path b.path with
  | lt => rfl
  | eq => exact absurd (Std.compare_eq_iff_eq.1 h) hne
  | gt => simp [h] at hab

/-- Changes in ascending order of their paths are known when it is known which they are. -/
theorem eq_of_ascending {cs ds : List Change} (hcs : cs.Pairwise fun a b => compare a.path b.path = .lt)
    (hds : ds.Pairwise fun a b => compare a.path b.path = .lt) (h : ∀ c, c ∈ cs ↔ c ∈ ds) : cs = ds := by
  have : Std.Irrefl fun a b : Change => compare a.path b.path = .lt := ⟨fun a h => by simp at h⟩
  have : Std.Antisymm fun a b : Change => compare a.path b.path = .lt :=
    ⟨fun a b hab hba => by simpa using Std.TransCmp.lt_trans hab hba⟩
  exact hcs.eq_of_mem_iff hds h

/-- The changes are known when the differences are. -/
theorem diff_congr (h : ∀ path, (Member.ownerOf? members path).isSome → kindAt? old new path = kindAt? old' new path) :
    diff members old new = diff members old' new := by
  refine eq_of_ascending diff_ascending diff_ascending fun c => ?_
  rw [mem_diff_iff, mem_diff_iff]
  refine and_congr_left fun ho => ?_
  rw [h c.path (by simp [ho])]

theorem diff_eq_nil_iff :
    diff members old new = [] ↔ ∀ path, (Member.ownerOf? members path).isSome → kindAt? old new path = none := by
  refine ⟨fun h path ho => ?_, fun h => ?_⟩
  · obtain ⟨m, hm⟩ := Option.isSome_iff_exists.1 ho
    refine Option.eq_none_iff_forall_not_mem.2 fun kind hk => ?_
    have hc : (⟨path, kind, m⟩ : Change) ∈ diff members old new := mem_diff_iff.2 ⟨hk, hm⟩
    simp [h] at hc
  · refine List.eq_nil_iff_forall_not_mem.2 fun c hc => ?_
    obtain ⟨hk, ho⟩ := mem_diff_iff.1 hc
    exact nomatch hk.symm.trans (h c.path (by simp [ho]))

/-! ### Exact differences -/

/-- A path differs between two snapshots: only one of them has it, or they have it with different contents. -/
inductive Differs (old new : Snapshot) (path : List String) : ChangeKind → Prop
  | created {stamp : Stamp} (ho : old.get? path = none) (hn : new.get? path = some stamp) : Differs old new path .created
  | deleted {stamp : Stamp} (ho : old.get? path = some stamp) (hn : new.get? path = none) : Differs old new path .deleted
  | modified {before stamp : Stamp} (ho : old.get? path = some before) (hn : new.get? path = some stamp)
    (h : ¬before.sameContent stamp) : Differs old new path .modified

theorem kindAt?_eq_some_iff {kind : ChangeKind} : kindAt? old new path = some kind ↔ Differs old new path kind := by
  unfold kindAt? kindOf? SortedMap.contains
  constructor
  · intro h
    cases hnew : new.get? path with
    | none =>
      cases hold : old.get? path with
      | none => simp [hnew, hold] at h
      | some stamp =>
        obtain rfl : .deleted = kind := by simpa [hnew, hold] using h
        exact .deleted hold hnew
    | some stamp =>
      cases hold : old.get? path with
      | none =>
        obtain rfl : .created = kind := by simpa [hnew, hold] using h
        exact .created hold hnew
      | some before =>
        obtain ⟨hsame, rfl⟩ : before.sameContent stamp = false ∧ .modified = kind := by simpa [hnew, hold] using h
        exact .modified hold hnew (by simp [hsame])
  · rintro (⟨ho, hn⟩ | ⟨ho, hn⟩ | ⟨ho, hn, h⟩)
    · simp [ho, hn]
    · simp [ho, hn]
    · simp [ho, hn, h]

theorem Differs.reverse {kind : ChangeKind} (h : Differs old new path kind) : Differs new old path kind.reverse := by
  cases h with
  | created ho hn => exact .deleted hn ho
  | deleted ho hn => exact .created hn ho
  | modified ho hn h => exact .modified hn ho (by rwa [Stamp.sameContent_comm])

theorem not_differs_self (s : Snapshot) (path : List String) (kind : ChangeKind) : ¬Differs s s path kind := by
  rintro (⟨ho, hn⟩ | ⟨ho, hn⟩ | ⟨ho, hn, h⟩)
  · exact nomatch ho.symm.trans hn
  · exact nomatch ho.symm.trans hn
  · obtain rfl := Option.some.inj (ho.symm.trans hn)
    exact h (Stamp.sameContent_self _)

theorem mem_diff_iff_differs :
    c ∈ diff members old new ↔ Differs old new c.path c.kind ∧ Member.ownerOf? members c.path = some c.member := by
  rw [mem_diff_iff, kindAt?_eq_some_iff]

theorem diff_self (members : List Member) (s : Snapshot) : diff members s s = [] := by
  refine List.eq_nil_iff_forall_not_mem.2 fun c hc => ?_
  exact not_differs_self s c.path c.kind (mem_diff_iff_differs.1 hc).1

theorem reverse_mem_diff (h : c ∈ diff members old new) : c.reverse ∈ diff members new old := by
  obtain ⟨hd, ho⟩ := mem_diff_iff_differs.1 h
  exact mem_diff_iff_differs.2 ⟨hd.reverse, ho⟩

/-- The changes back are the changes, one by one the other way round. -/
theorem diff_reverse (members : List Member) (old new : Snapshot) :
    diff members new old = (diff members old new).map Change.reverse := by
  have hascending : ((diff members old new).map Change.reverse).Pairwise fun a b => compare a.path b.path = .lt :=
    List.pairwise_map.2 diff_ascending
  refine eq_of_ascending diff_ascending hascending fun c => ?_
  rw [List.mem_map]
  constructor
  · intro h
    exact ⟨c.reverse, reverse_mem_diff h, c.reverse_reverse⟩
  · rintro ⟨d, hd, rfl⟩
    exact reverse_mem_diff hd

/-- The changes between two snapshots are, in strictly ascending order of the paths, the differences of the paths that
members hold, each with the member that holds it.  A snapshot has no changes to itself, and the changes the other way
round have deleted for created and created for deleted. -/
theorem diff_exact (members : List Member) (old new : Snapshot) :
    ((diff members old new).Pairwise fun a b => compare a.path b.path = .lt) ∧
      (∀ path kind m, ⟨path, kind, m⟩ ∈ diff members old new ↔
        Differs old new path kind ∧ Member.ownerOf? members path = some m) ∧
      diff members old old = [] ∧ diff members new old = (diff members old new).map Change.reverse :=
  ⟨diff_ascending, fun _ _ _ => mem_diff_iff_differs, diff_self members old, diff_reverse members old new⟩

/-! ### Snapshots of one kind -/

/-- All stamps have digests, or none has. -/
def Stamped (hashed : Bool) (s : Snapshot) : Prop := ∀ path stamp, s.get? path = some stamp → stamp.digest.isSome = hashed

/-- Two snapshots have the same of a path. -/
def AgreeAt (hashed : Bool) (a b : Snapshot) (path : List String) : Prop :=
  (a.get? path).map (Stamp.essence hashed) = (b.get? path).map (Stamp.essence hashed)

/-- Two snapshots have the same of every path that a member holds. -/
def Agree (members : List Member) (hashed : Bool) (a b : Snapshot) : Prop :=
  ∀ path, (Member.ownerOf? members path).isSome → AgreeAt hashed a b path

variable {hashed : Bool}

theorem Agree.refl (s : Snapshot) : Agree members hashed s s := fun _ _ => rfl

theorem Agree.symm {a b : Snapshot} (h : Agree members hashed a b) : Agree members hashed b a :=
  fun path ho => (h path ho).symm

theorem kindAt?_eq_none_iff (ho : old.Stamped hashed) (hn : new.Stamped hashed) :
    kindAt? old new path = none ↔ AgreeAt hashed old new path := by
  unfold kindAt? kindOf? AgreeAt
  cases hnew : new.get? path with
  | none => cases hold : old.get? path <;> simp [SortedMap.contains, hold]
  | some stamp =>
    cases hold : old.get? path with
    | none => simp
    | some before => simp [Stamp.sameContent_iff (ho _ _ hold) (hn _ _ hnew)]

theorem kindAt?_congr (ho : old.Stamped hashed) (ho' : old'.Stamped hashed) (hn : new.Stamped hashed)
    (h : AgreeAt hashed old old' path) : kindAt? old new path = kindAt? old' new path := by
  unfold kindAt? kindOf? SortedMap.contains
  unfold AgreeAt at h
  cases hold : old.get? path with
  | none =>
    cases hold' : old'.get? path with
    | none => rfl
    | some _ => simp [hold, hold'] at h
  | some before =>
    cases hold' : old'.get? path with
    | none => simp [hold, hold'] at h
    | some before' =>
      have he : before.essence hashed = before'.essence hashed := by simpa [hold, hold'] using h
      cases hnew : new.get? path with
      | none => rfl
      | some stamp =>
        have hsame : before.sameContent stamp = before'.sameContent stamp := by
          rw [Bool.eq_iff_iff, Stamp.sameContent_iff (ho _ _ hold) (hn _ _ hnew),
            Stamp.sameContent_iff (ho' _ _ hold') (hn _ _ hnew), he]
        simp [hsame]

/-- Nothing has changed exactly if the snapshots agree. -/
theorem diff_eq_nil_iff_agree (ho : old.Stamped hashed) (hn : new.Stamped hashed) :
    diff members old new = [] ↔ Agree members hashed old new := by
  simp only [diff_eq_nil_iff, Agree, kindAt?_eq_none_iff ho hn]

/-- Snapshots that agree have the same changes to a third one. -/
theorem Agree.diff_eq (ho : old.Stamped hashed) (ho' : old'.Stamped hashed) (hn : new.Stamped hashed)
    (h : Agree members hashed old old') : diff members old new = diff members old' new :=
  diff_congr fun path hp => kindAt?_congr ho ho' hn (h path hp)

end Snapshot

end ScriptRunner
