import ScriptRunner.Proofs.Watch.Differences

/-!
# What a scan takes

Every stamp of a scan comes from the walk of one member (`get?_take`), and every stamp of a walk is one that
`Snapshot.stampOf` makes (`forall_stampsOf`).  So a scan without digests takes a snapshot without digests, whatever the
tree is (`stamped_take`).
-/

namespace ScriptRunner

namespace Snapshot

variable {s : Scan} {place : List String} {P : List String × Stamp → Prop}

mutual

/-- What holds of the stamps of all nodes holds of the stamps of a walk. -/
theorem forall_stampsOf (hP : ∀ path n, P (path, stampOf s.options s.previous path n)) :
    ∀ (rel : List String) (n : Node), ∀ e ∈ stampsOf s place rel n, P e
  | rel, .dir entries => by
    intro e he
    unfold stampsOf at he
    split at he
    · simp at he
    · exact forall_stampsIn hP rel entries e he
  | rel, .file _ _ | rel, .link _ _ | rel, .device _ => by
    intro e he
    unfold stampsOf at he
    split at he
    · simp at he
    · obtain rfl := List.mem_singleton.1 he
      exact hP _ _

theorem forall_stampsIn (hP : ∀ path n, P (path, stampOf s.options s.previous path n)) :
    ∀ (rel : List String) (entries : List (String × Node)), ∀ e ∈ stampsIn s place rel entries, P e
  | rel, [] => by simp [stampsIn]
  | rel, (name, n) :: es => by
    intro e he
    unfold stampsIn at he
    rcases List.mem_append.1 he with he | he
    · exact forall_stampsOf hP _ n e he
    · exact forall_stampsIn hP rel es e he

end

/-- Every stamp of a scan comes from the walk of one member. -/
theorem get?_take {t : Tree} {members : List Member} {options : ScanOptions} {previous : Option Snapshot}
    {path : List String} {stamp : Stamp} (h : (take t members options previous).value.get? path = some stamp) :
    ∃ m ∈ members, ∃ d entries, t.resolve [] m.dir = .ok (d, .dir entries) ∧
      (path, stamp) ∈ stampsIn ⟨options, members.map Member.place, previous⟩ m.place [] entries := by
  have hmem := SortedMap.mem_of_get?_ofList h
  rw [Logged.value_mapM, ← List.flatMap_def] at hmem
  obtain ⟨m, hm, hstamp⟩ := List.mem_flatMap.1 hmem
  refine ⟨m, hm, ?_⟩
  unfold ofMember at hstamp
  split at hstamp
  · exact absurd hstamp List.not_mem_nil
  · rename_i hresolve
    exact ⟨_, _, hresolve, hstamp⟩
  · exact absurd hstamp List.not_mem_nil

/-- A scan keeps every path that the walk of some member meets. -/
theorem contains_take {t : Tree} {members : List Member} {options : ScanOptions} {previous : Option Snapshot}
    {m : Member} {d : List String} {entries : List (String × Node)} {e : List String × Stamp} (hm : m ∈ members)
    (hd : t.resolve [] m.dir = .ok (d, .dir entries))
    (he : e ∈ stampsIn ⟨options, members.map Member.place, previous⟩ m.place [] entries) :
    (take t members options previous).value.contains e.1 := by
  refine SortedMap.contains_ofList (a := e.2) ?_
  rw [Logged.value_mapM, ← List.flatMap_def]
  refine List.mem_flatMap.2 ⟨m, hm, ?_⟩
  unfold ofMember
  rw [hd]
  exact he

/-- A scan that does not read the files takes no digests. -/
theorem stamped_take {t : Tree} {members : List Member} {options : ScanOptions} {previous : Option Snapshot}
    (h : options.useHash = false) : (take t members options previous).value.Stamped options.useHash := by
  intro path stamp hstamp
  obtain ⟨m, -, _, entries, -, hmem⟩ := get?_take hstamp
  refine forall_stampsIn (P := fun e => e.2.digest.isSome = options.useHash) (fun path n => ?_) [] entries _ hmem
  cases n <;> simp [stampOf, h]

end Snapshot

end ScriptRunner
