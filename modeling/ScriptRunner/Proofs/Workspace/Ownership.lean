import Mathlib.Data.Fintype.EquivFin
import Mathlib.Data.List.Infix
import Mathlib.Data.List.Induction
import Mathlib.Data.List.Nodup
import ScriptRunner.Workspace.Member

/-!
# Ownership

The owner of a path is the deepest member whose directory holds it, and of equally deep ones the last
(`Member.ownerOf?_eq_some_iff`).  Among members with distinct directories it is simply the deepest one
(`Member.ownerOf?_eq_some_iff_of_nodup`), so that their order does not count; and a member matters only for the paths
that it holds (`Member.owner?_deepest`).  All this rests on one fact: of any two directories that hold a path, the one
with fewer components holds the other.

Who owns a path depends on the members that are asked.  A selection is `Member.Closed` if no other member's directory
lies in one of its members' directories.  Asking a closed selection is asking all members and leaving out the others
(`Member.Closed.ownerOf?_eq`); if a selection is not closed, it claims files that are not its own.
-/

namespace ScriptRunner.Member

variable {all selected members : List Member} {path : List String} {m m' : Member} {i j : Nat}

/-- The owner of a path stands at this position: its directory holds the path, no deeper one does, and no equal one
comes later. -/
structure OwnsAt (members : List Member) (path : List String) (i : Nat) (m : Member) : Prop where
  getElem? : members[i]? = some m
  holds : m.place <+: path
  deepest : ∀ m' ∈ members, m'.place <+: path → m'.place <+: m.place
  last : ∀ j m', i < j → members[j]? = some m' → m'.place ≠ m.place

theorem OwnsAt.mem (h : OwnsAt members path i m) : m ∈ members := List.mem_of_getElem? h.getElem?

/-- Two members that hold one path and are deepest have one directory. -/
theorem place_eq_of_prefix (h : m.place <+: m'.place) (h' : m'.place <+: m.place) : m.place = m'.place :=
  h.eq_of_length_le h'.length_le

theorem OwnsAt.unique (h : OwnsAt members path i m) (h' : OwnsAt members path j m') : i = j ∧ m = m' := by
  have hplace : m.place = m'.place :=
    place_eq_of_prefix (h'.deepest m h.mem h.holds) (h.deepest m' h'.mem h'.holds)
  rcases Nat.lt_trichotomy i j with hij | rfl | hij
  · exact absurd hplace.symm (h.last j m' hij h'.getElem?)
  · exact ⟨rfl, Option.some.inj (h.getElem?.symm.trans h'.getElem?)⟩
  · exact absurd hplace (h'.last i m hij h.getElem?)

theorem ownerOf?_eq_none_iff : ownerOf? members path = none ↔ ∀ m ∈ members, ¬m.place <+: path := by
  induction members using List.reverseRecOn with
  | nil => simp [ownerOf?_nil]
  | append_singleton members m ih =>
    rw [ownerOf?_concat]
    by_cases hm : m.place <+: path
    · rw [if_pos (List.isPrefixOf_iff_prefix.2 hm)]
      constructor
      · intro h
        split at h
        · split at h <;> exact nomatch h
        · exact nomatch h
      · exact fun h => absurd hm (h m (by simp))
    · rw [if_neg (mt List.isPrefixOf_iff_prefix.1 hm), ih]
      simp [or_imp, forall_and, hm]

/-- The owner among some members stays the owner unless a last member holds the path as deeply. -/
theorem OwnsAt.concat (h : OwnsAt members path i m) (hx : m'.place <+: path → m'.place.length < m.place.length) :
    OwnsAt (members ++ [m']) path i m := by
  have hlt : i < members.length := (List.getElem?_eq_some_iff.1 h.getElem?).1
  refine ⟨by rw [List.getElem?_append_left hlt, h.getElem?], h.holds, fun x hmem hp => ?_, fun j x hij hj => ?_⟩
  · rcases List.mem_append.1 hmem with hmem | hmem
    · exact h.deepest x hmem hp
    · obtain rfl := List.mem_singleton.1 hmem
      exact List.prefix_of_prefix_length_le hp h.holds (hx hp).le
  · rcases Nat.lt_or_ge j members.length with hj' | hj'
    · exact h.last j x hij (by rwa [List.getElem?_append_left hj'] at hj)
    · rw [List.getElem?_append_right hj'] at hj
      obtain rfl := List.mem_singleton.1 (List.mem_of_getElem? hj)
      intro he
      exact absurd (hx (he ▸ h.holds)) (by rw [he]; exact Nat.lt_irrefl _)

/-- A last member that holds the path as deeply as the others is the owner. -/
theorem ownsAt_concat (h : m.place <+: path)
    (hle : ∀ m' ∈ members, m'.place <+: path → m'.place.length ≤ m.place.length) :
    OwnsAt (members ++ [m]) path members.length m := by
  refine ⟨by simp, h, fun x hmem hp => ?_, fun j x hj hx => ?_⟩
  · rcases List.mem_append.1 hmem with hmem | hmem
    · exact List.prefix_of_prefix_length_le hp h (hle x hmem hp)
    · obtain rfl := List.mem_singleton.1 hmem
      exact List.prefix_refl _
  · rw [List.getElem?_eq_none (by simp; omega)] at hx
    cases hx

theorem exists_ownsAt (h : ownerOf? members path = some m) : ∃ i, OwnsAt members path i m := by
  induction members using List.reverseRecOn generalizing m with
  | nil => exact nomatch h
  | append_singleton members x ih =>
    rw [ownerOf?_concat] at h
    by_cases hx : x.place <+: path
    · rw [if_pos (List.isPrefixOf_iff_prefix.2 hx)] at h
      cases hb : ownerOf? members path with
      | none =>
        rw [hb] at h
        obtain rfl := Option.some.inj h
        exact ⟨_, ownsAt_concat hx fun m' hm' hp => absurd hp (ownerOf?_eq_none_iff.1 hb m' hm')⟩
      | some b =>
        rw [hb] at h
        dsimp only at h
        obtain ⟨i, hi⟩ := ih hb
        split at h
        · rename_i hlt
          obtain rfl := Option.some.inj h
          exact ⟨i, hi.concat fun _ => hlt⟩
        · rename_i hle
          obtain rfl := Option.some.inj h
          refine ⟨_, ownsAt_concat hx fun m' hm' hp => ?_⟩
          exact (hi.deepest m' hm' hp).length_le.trans (Nat.not_lt.1 hle)
    · rw [if_neg (mt List.isPrefixOf_iff_prefix.1 hx)] at h
      obtain ⟨i, hi⟩ := ih h
      exact ⟨i, hi.concat fun hp => absurd hp hx⟩

/-- Every path that some member holds has an owner. -/
theorem exists_owner (hm : m ∈ members) (h : m.place <+: path) : ∃ o, ownerOf? members path = some o :=
  Option.ne_none_iff_exists'.1 fun hnone => ownerOf?_eq_none_iff.1 hnone m hm h

theorem ownerOf?_eq_some_iff : ownerOf? members path = some m ↔ ∃ i, OwnsAt members path i m := by
  refine ⟨exists_ownsAt, fun ⟨i, hi⟩ => ?_⟩
  obtain ⟨o, ho⟩ := exists_owner hi.mem hi.holds
  obtain ⟨j, hj⟩ := exists_ownsAt ho
  rw [ho, (hi.unique hj).2]

/-- Among members with distinct directories the owner is the deepest one. -/
theorem ownerOf?_eq_some_iff_of_nodup (hn : (members.map place).Nodup) : ownerOf? members path = some m ↔
    m ∈ members ∧ m.place <+: path ∧ ∀ m' ∈ members, m'.place <+: path → m'.place <+: m.place := by
  rw [ownerOf?_eq_some_iff]
  constructor
  · rintro ⟨i, hi⟩
    exact ⟨hi.mem, hi.holds, hi.deepest⟩
  · rintro ⟨hm, hp, hdeepest⟩
    obtain ⟨i, hi⟩ := List.mem_iff_getElem?.1 hm
    refine ⟨i, hi, hp, hdeepest, fun j m' hij hj he => ?_⟩
    have hlt : i < (members.map place).length := by simpa using (List.getElem?_eq_some_iff.1 hi).1
    exact absurd ((List.getElem?_inj hlt hn).1 (by simp [hi, hj, he])) (Nat.ne_of_lt hij)

/-! ### The order of the members -/

/-- Of the directories that hold one path, the longest holds the others. -/
theorem ownsAt_iff_length : OwnsAt members path i m ↔ members[i]? = some m ∧ m.place <+: path ∧
    (∀ m' ∈ members, m'.place <+: path → m'.place.length ≤ m.place.length) ∧
      ∀ j m', i < j → members[j]? = some m' → m'.place <+: path → m'.place.length < m.place.length := by
  constructor
  · refine fun h => ⟨h.getElem?, h.holds, fun m' hm' hp => (h.deepest m' hm' hp).length_le, fun j m' hij hj hp => ?_⟩
    have hpre := h.deepest m' (List.mem_of_getElem? hj) hp
    exact Nat.lt_of_le_of_ne hpre.length_le fun hlen => h.last j m' hij hj (hpre.eq_of_length hlen)
  · rintro ⟨hi, hp, hlongest, hlast⟩
    refine ⟨hi, hp, fun m' hm' hp' => List.prefix_of_prefix_length_le hp' hp (hlongest m' hm' hp'), ?_⟩
    intro j m' hij hj hplace
    exact Nat.ne_of_lt (hlast j m' hij hj (hplace ▸ hp)) (congrArg List.length hplace)

/-- Among members with distinct directories the order does not count. -/
theorem ownerOf?_perm (hn : (members.map place).Nodup) {members' : List Member} (hperm : members'.Perm members)
    (path : List String) : ownerOf? members' path = ownerOf? members path := by
  have hn' : (members'.map place).Nodup := (hperm.map place).nodup_iff.2 hn
  refine Option.ext fun m => ?_
  rw [ownerOf?_eq_some_iff_of_nodup hn', ownerOf?_eq_some_iff_of_nodup hn]
  simp only [hperm.mem_iff]

/-- Among members with distinct directories, those that hold a path without owning it hold the owner's directory. -/
theorem above_owner (hn : (members.map place).Nodup) (h : ownerOf? members path = some m) (hm' : m' ∈ members)
    (hne : m' ≠ m) (hp : m'.place <+: path) : m'.place <+: m.place ∧ m'.place ≠ m.place := by
  obtain ⟨hm, -, hdeepest⟩ := (ownerOf?_eq_some_iff_of_nodup hn).1 h
  exact ⟨hdeepest m' hm' hp, fun hplace => hne (List.inj_on_of_nodup_map hn hm' hm hplace)⟩

/-- A member that does not hold a path does not count. -/
theorem ownerOf?_insert (h : ¬m.place <+: path) (front back : List Member) :
    ownerOf? (front ++ m :: back) path = ownerOf? (front ++ back) path := by
  have hm : m.place.isPrefixOf path = false := Bool.eq_false_iff.2 (mt List.isPrefixOf_iff_prefix.1 h)
  simp only [ownerOf?, List.filter_append, List.filter_cons, hm, Bool.false_eq_true, if_false]

/-- No member owns a path that none holds; the owner of any other path is the last of the deepest members that hold it.
Among members with distinct directories their order does not count, and all others that hold the path are above the
owner.  One more member, wherever it is put, changes the owner only of paths that it holds. -/
theorem owner?_deepest (members : List Member) (path : String) :
    (owner? members path = none ↔ ∀ m ∈ members, ¬m.place <+: Path.components path) ∧
      (∀ m, owner? members path = some m ↔ ∃ i, members[i]? = some m ∧ m.place <+: Path.components path ∧
        (∀ m' ∈ members, m'.place <+: Path.components path → m'.place.length ≤ m.place.length) ∧
        ∀ (j : Nat) (m' : Member), i < j → members[j]? = some m' → m'.place <+: Path.components path →
          m'.place.length < m.place.length) ∧
      ((members.map place).Nodup →
        (∀ members', members'.Perm members → owner? members' path = owner? members path) ∧
        ∀ m, owner? members path = some m → ∀ m' ∈ members, m' ≠ m → m'.place <+: Path.components path →
          m'.place <+: m.place ∧ m'.place ≠ m.place) ∧
      ∀ front back m, front ++ back = members → ¬m.place <+: Path.components path →
        owner? (front ++ m :: back) path = owner? members path := by
  refine ⟨ownerOf?_eq_none_iff, fun m => ?_, fun hn => ⟨fun members' hperm => ?_, ?_⟩, ?_⟩
  · rw [owner?, ownerOf?_eq_some_iff]
    exact exists_congr fun i => ownsAt_iff_length
  · exact ownerOf?_perm hn hperm _
  · exact fun m h m' hm' hne hp => above_owner hn h hm' hne hp
  · rintro front back m rfl h
    exact ownerOf?_insert h front back

/-- A nested member among others, one of which only begins with the same letters; slashes and points do not count. -/
theorem owner?_deepest_nested :
    let app : Member := ⟨"app", "app", "/ws/app", none, none⟩
    let lib : Member := ⟨"lib", "app/lib", "/ws//app/./lib/", none, none⟩
    let legacy : Member := ⟨"legacy", "app-legacy", "/ws/app-legacy", none, none⟩
    let src : Member := ⟨"src", "app/src", "/ws/app/src", none, none⟩
    let path := "/ws/app/lib/./src//a.ts"
    ([lib, app, legacy].map place).Nodup ∧ owner? [lib, app, legacy] path = some lib ∧
      owner? [legacy, app, lib] path = some lib ∧ (app.place <+: lib.place ∧ app.place ≠ lib.place) ∧
      ¬src.place <+: Path.components path ∧ owner? [lib, src, app, legacy] path = some lib ∧
      owner? [app, lib] "/ws/app-legacy/index.js" = none := by
  intro app lib legacy src path
  have hn : ([lib, app, legacy].map place).Nodup := by decide +kernel
  have hsrc : ¬src.place <+: Path.components path := by decide +kernel
  obtain ⟨-, -, hdistinct, hinsert⟩ := owner?_deepest [lib, app, legacy] path
  have hlib : owner? [lib, app, legacy] path = some lib := by decide +kernel
  refine ⟨hn, hlib, ?_, ?_, hsrc, ?_, ?_⟩
  · rw [(hdistinct hn).1 [legacy, app, lib] (by decide +kernel), hlib]
  · exact (hdistinct hn).2 lib hlib app (by decide +kernel) (by decide +kernel) (by decide +kernel)
  · exact (hinsert [lib] [app, legacy] src rfl hsrc).trans hlib
  · exact (owner?_deepest [app, lib] "/ws/app-legacy/index.js").1.2 (by decide +kernel)

/-! ### Asking a selection -/

/-- No directory of another member lies in the directory of a selected one. -/
def Closed (all selected : List Member) : Prop :=
  ∀ d ∈ all, d ∉ selected → ∀ m ∈ selected, ¬m.place <+: d.place

instance : Decidable (Closed all selected) :=
  inferInstanceAs (Decidable (∀ d ∈ all, d ∉ selected → ∀ m ∈ selected, ¬m.place <+: d.place))

/-- A selected member that owns a path owns it among the selected members. -/
theorem ownerOf?_of_mem (hsub : selected.Sublist all) (hn : (all.map place).Nodup) (h : ownerOf? all path = some m)
    (hm : m ∈ selected) : ownerOf? selected path = some m := by
  obtain ⟨-, hp, hdeepest⟩ := (ownerOf?_eq_some_iff_of_nodup hn).1 h
  exact (ownerOf?_eq_some_iff_of_nodup (hn.sublist (hsub.map _))).2
    ⟨hm, hp, fun m' hm' => hdeepest m' (hsub.subset hm')⟩

/-- Asking a closed selection is asking all members and leaving out the others. -/
theorem Closed.ownerOf?_eq (h : Closed all selected) (hsub : selected.Sublist all) (hn : (all.map place).Nodup)
    (path : List String) : ownerOf? selected path = (ownerOf? all path).filter (· ∈ selected) := by
  cases ho : ownerOf? all path with
  | none =>
    rw [Option.filter_none, ownerOf?_eq_none_iff]
    exact fun m hm => ownerOf?_eq_none_iff.1 ho m (hsub.subset hm)
  | some o =>
    obtain ⟨hmem, -, hdeepest⟩ := (ownerOf?_eq_some_iff_of_nodup hn).1 ho
    by_cases hs : o ∈ selected
    · rw [ownerOf?_of_mem hsub hn ho hs, Option.filter_some, if_pos (by simpa using hs)]
    · -- a selected member that holds the path would hold the directory of its owner
      have hnone : ownerOf? selected path = none := ownerOf?_eq_none_iff.2 fun m hm hp =>
        h o hmem hs m hm (hdeepest m (hsub.subset hm) hp)
      rw [hnone, Option.filter_some, if_neg (by simpa using hs)]

/-- Every member has room for a file of its own. -/
theorem exists_own_file (hn : (all.map place).Nodup) (hm : m ∈ all) :
    ∃ name, ownerOf? all (m.place ++ [name]) = some m := by
  obtain ⟨name, hname⟩ := Infinite.exists_notMem_finset (all.filterMap (·.place.getLast?)).toFinset
  refine ⟨name, (ownerOf?_eq_some_iff_of_nodup hn).2 ⟨hm, List.prefix_append _ _, fun m' hm' hp => ?_⟩⟩
  refine (List.prefix_concat_iff.1 hp).resolve_left fun he => hname ?_
  exact List.mem_toFinset.2 (List.mem_filterMap.2 ⟨m', hm', by simp [he]⟩)

/-- A selection that is not closed has a file of another member claimed by one of its own. -/
theorem exists_of_not_closed (hsub : selected.Sublist all) (hn : (all.map place).Nodup) (h : ¬Closed all selected) :
    ∃ path, ∃ d ∈ all, d ∉ selected ∧ ownerOf? all path = some d ∧ ∃ m ∈ selected, ownerOf? selected path = some m := by
  unfold Closed at h
  push Not at h
  obtain ⟨d, hd, hds, m, hm, hp⟩ := h
  obtain ⟨name, hname⟩ := exists_own_file hn hd
  obtain ⟨o, ho⟩ := exists_owner hm (hp.trans (List.prefix_append _ [name]))
  exact ⟨_, d, hd, hds, hname, o, ((ownerOf?_eq_some_iff_of_nodup (hn.sublist (hsub.map _))).1 ho).1, ho⟩

end ScriptRunner.Member
