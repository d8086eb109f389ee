import Mathlib.Data.List.Basic
import ScriptRunner.Proofs.Filter.References

/-!
# Inherited patterns

A filter leads to the one that it extends, and so on (`Leads`).  Since a filter extends one other at most, the names
that a filter leads to are settled, and the walk along them stops in one of three ways: at a filter that extends none, at
a name that no filter has, or at a name that it has met (`Ending`).  A walk that is not caught in a circle meets no name
twice (`Leads.nodup`), so that the search for names met before never stops it too early, and it does not matter that the
search knows the names only up to where it is (`walk_of_leads`).
-/

namespace ScriptRunner

namespace NamedFilter

/-! ### Walks -/

/-- The filter of a name extends the other name. -/
def Extends (filters : Filters) (name parent : String) : Prop :=
  ∃ f, filters.get? name = some f ∧ f.parent = some parent

/-- From a name, one link after another, over the names met to the last one. -/
inductive Leads (filters : Filters) : String → List String → String → Prop
  | start (name : String) : Leads filters name [] name
  | link {name next : String} {met : List String} {last : String} (e : Extends filters name next)
    (h : Leads filters next met last) : Leads filters name (name :: met) last

/-- Why a walk stops. -/
inductive Ending where
  /-- At a filter that extends none. -/
  | root
  /-- At a name that no filter has. -/
  | missing
  /-- At a name met before. -/
  | circle
  deriving DecidableEq, Repr

/-- A walk that has met some names stops at the last one, and has not stopped before. -/
def Ending.Stops (filters : Filters) (met : List String) (last : String) : Ending → Prop
  | root => ∃ f, filters.get? last = some f ∧ f.parent = none
  | missing => filters.get? last = none
  | circle => met.Nodup ∧ last ∈ met

/-- The walk from a name, with the names met before the one that it stops at. -/
structure Walk (filters : Filters) (name : String) (ending : Ending) (met : List String) (last : String) : Prop where
  leads : Leads filters name met last
  stops : ending.Stops filters met last

/-- The patterns of the filter of a name, without those that it inherits. -/
def ownPatterns (filters : Filters) (name : String) : List String := ((filters.get? name).map (·.patterns)).getD []

/-- What a walk finds. -/
def Ending.chain (filters : Filters) (met : List String) (last : String) : Ending → Chain
  | root => .complete ((met ++ [last]).filterMap filters.get?)
  | missing => .dangling last
  | circle => .circular (met ++ [last])

variable {filters : Filters} {name next last last' : String} {met met' names : List String} {fs : List NamedFilter}
  {ending ending' : Ending}

theorem extends_iff : Extends filters name next ↔ (filters.get? name).bind (·.parent) = some next :=
  Option.bind_eq_some_iff.symm

instance : Decidable (Extends filters name next) := decidable_of_iff _ extends_iff.symm

theorem Extends.unique {next' : String} (h : Extends filters name next) (h' : Extends filters name next') :
    next = next' :=
  Option.some.inj ((extends_iff.1 h).symm.trans (extends_iff.1 h'))

theorem Leads.concat (h : Leads filters name met last) (e : Extends filters last next) :
    Leads filters name (met ++ [last]) next := by
  induction h with
  | start name => exact .link e (.start next)
  | link e' _ ih => exact .link e' (ih e)

/-- Every name met leads on to the last one. -/
theorem Leads.of_mem {x : String} (h : Leads filters name met last) (hx : x ∈ met) :
    ∃ front back, met = front ++ x :: back ∧ Leads filters x (x :: back) last := by
  induction h with
  | start => cases hx
  | @link name next met last e h ih =>
    rcases List.mem_cons.1 hx with rfl | hx
    · exact ⟨[], met, rfl, .link e h⟩
    · obtain ⟨front, back, rfl, hback⟩ := ih hx
      exact ⟨name :: front, back, rfl, hback⟩

theorem Leads.mem_keys {x : String} (h : Leads filters name met last) (hx : x ∈ met) :
    x ∈ filters.keys := by
  obtain ⟨_, back, -, hback⟩ := h.of_mem hx
  cases hback with
  | link e _ =>
    obtain ⟨f, hf, -⟩ := e
    exact SortedMap.contains_iff_mem_keys.1 (by simp [SortedMap.contains, hf])

/-- Two walks to names that extend none are the same walk. -/
theorem Leads.unique (h : Leads filters name met last) (h' : Leads filters name met' last')
    (hend : ∀ y, ¬Extends filters last y) (hend' : ∀ y, ¬Extends filters last' y) : met = met' := by
  induction h generalizing met' with
  | start =>
    cases h' with
    | start => rfl
    | link e _ => exact absurd e (hend _)
  | link e _ ih =>
    cases h' with
    | start => exact absurd e (hend' _)
    | link e' h' =>
      obtain rfl := e.unique e'
      rw [ih h' hend]

/-- A walk to a name that extends none meets no name twice: the second time it would go on as it did the first time. -/
theorem Leads.nodup (h : Leads filters name met last) (hend : ∀ y, ¬Extends filters last y) :
    last ∉ met ∧ met.Nodup := by
  induction h with
  | start => exact ⟨List.not_mem_nil, List.nodup_nil⟩
  | @link name next met last e h ih =>
    obtain ⟨hlast, hmet⟩ := ih hend
    have hname : name ∉ met := by
      intro hmem
      obtain ⟨front, back, hsplit, hback⟩ := h.of_mem hmem
      have hlen := congrArg List.length ((Leads.link e h).unique hback hend hend)
      simp only [hsplit, List.length_cons, List.length_append] at hlen
      omega
    have hne : last ≠ name := by
      rintro rfl
      exact hend next e
    exact ⟨by simp [hne, hlast], List.nodup_cons.2 ⟨hname, hmet⟩⟩

theorem Walk.not_extends (h : Walk filters name ending met last) (he : ending ≠ .circle) (y : String) :
    ¬Extends filters last y := by
  obtain ⟨-, hstops⟩ := h
  cases ending with
  | root =>
    obtain ⟨f, hf, hp⟩ := hstops
    simp [extends_iff, hf, hp]
  | missing =>
    have hget : filters.get? last = none := hstops
    simp [extends_iff, hget]
  | circle => exact absurd rfl he

theorem Walk.last_not_mem (h : Walk filters name ending met last) (he : ending ≠ .circle) : last ∉ met :=
  (h.leads.nodup (h.not_extends he)).1

/-- The names that a walk meets before it stops are distinct. -/
theorem Walk.nodup (h : Walk filters name ending met last) : met.Nodup := by
  by_cases he : ending = .circle
  · subst he
    exact h.stops.1
  · exact (h.leads.nodup (h.not_extends he)).2

/-- A walk meets no more names than there are filters. -/
theorem Walk.length_le (h : Walk filters name ending met last) : met.length ≤ filters.size := by
  have hsub : met ⊆ filters.keys := fun _ hx => h.leads.mem_keys hx
  have hle : met.length ≤ filters.keys.length := (h.nodup.subperm hsub).length_le
  rwa [SortedMap.keys, List.length_map] at hle

/-- A walk that comes to a filter starts at one. -/
theorem Walk.contains_of_root (h : Walk filters name .root met last) : filters.contains name := by
  obtain ⟨hleads, f, hf, -⟩ := h
  cases hleads with
  | start => simp [SortedMap.contains, hf]
  | link e _ =>
    obtain ⟨f', hf', -⟩ := e
    simp [SortedMap.contains, hf']

/-! ### The search -/

/-- One step of the search, at a name that has not been met. -/
theorem walk_of_not_mem (hn : name ∉ names) :
    walk filters names fs name =
      match filters.get? name with
      | none => .dangling name
      | some f =>
        match f.parent with
        | none => .complete (fs ++ [f])
        | some next => walk filters (names ++ [name]) (fs ++ [f]) next := by
  rw [walk, dif_neg hn]
  split
  · rename_i hget
    simp only [hget]
  · rename_i f hget
    cases hp : f.parent <;> simp only [hget, hp]

/-- The search goes over distinct names to the last one. -/
theorem walk_of_leads (h : Leads filters name met last) (hn : (names ++ met).Nodup) :
    walk filters names fs name = walk filters (names ++ met) (fs ++ met.filterMap filters.get?) last := by
  induction h generalizing names fs with
  | start => simp
  | @link name next met last e h ih =>
    have hname : name ∉ names := fun hmem => (List.nodup_append.1 hn).2.2 name hmem name (by simp) rfl
    have hassoc : names ++ name :: met = names ++ [name] ++ met := by simp
    obtain ⟨f, hf, hp⟩ := e
    have hstep : walk filters names fs name = walk filters (names ++ [name]) (fs ++ [f]) next := by
      simp only [walk_of_not_mem hname, hf, hp]
    rw [hstep, ih (hassoc ▸ hn), hassoc, List.filterMap_cons_some hf, List.append_assoc fs]
    rfl

/-- The search finds what the walk comes to. -/
theorem chainFrom_eq (h : Walk filters name ending met last) :
    chainFrom filters name = ending.chain filters met last := by
  have hrun : walk filters [] [] name = walk filters ([] ++ met) ([] ++ met.filterMap filters.get?) last :=
    walk_of_leads h.leads h.nodup
  rw [chainFrom, hrun, List.nil_append, List.nil_append]
  cases ending with
  | root =>
    obtain ⟨f, hf, hp⟩ := h.stops
    simp [walk_of_not_mem (h.last_not_mem nofun), hf, hp, Ending.chain]
  | missing =>
    have hget : filters.get? last = none := h.stops
    simp only [walk_of_not_mem (h.last_not_mem nofun), hget, Ending.chain]
  | circle =>
    rw [walk, dif_pos h.stops.2]
    rfl

/-- The search follows a walk to where it stops. -/
theorem exists_walk_of_leads {start : String} (fs : List NamedFilter) (h : Leads filters start names name)
    (hn : names.Nodup) :
    ∃ ending met last, Walk filters start ending met last := by
  fun_induction walk filters names fs name with
  | case1 names fs name hmem => exact ⟨.circle, names, name, h, hn, hmem⟩
  | case2 names fs name hmem hget => exact ⟨.missing, names, name, h, hget⟩
  | case3 names fs name hmem f hget hparent => exact ⟨.root, names, name, h, f, hget, hparent⟩
  | case4 names fs name hmem f hget next hparent ih =>
    exact ih (h.concat ⟨f, hget, hparent⟩) (by simpa using hn.concat hmem)

theorem exists_walk (filters : Filters) (name : String) : ∃ ending met last, Walk filters name ending met last :=
  exists_walk_of_leads [] (.start name) List.nodup_nil

/-- A walk stops in one way only. -/
theorem Walk.ending_unique (h : Walk filters name ending met last) (h' : Walk filters name ending' met' last') :
    ending = ending' := by
  have hchain : ending.chain filters met last = ending'.chain filters met' last' :=
    (chainFrom_eq h).symm.trans (chainFrom_eq h')
  cases ending <;> cases ending' <;> first | rfl | exact nomatch hchain

theorem existsUnique_ending (filters : Filters) (name : String) :
    ∃! ending, ∃ met last, Walk filters name ending met last := by
  obtain ⟨ending, met, last, h⟩ := exists_walk filters name
  exact ⟨ending, ⟨met, last, h⟩, fun ending' ⟨met', last', h'⟩ => h'.ending_unique h⟩

end NamedFilter

/-! ### What a filter stands for -/

namespace FilterSpec

open NamedFilter

variable {filters : Filters} {name last : String} {met : List String}

private theorem flatMap_patterns (filters : Filters) (names : List String) :
    (names.filterMap filters.get?).flatMap (·.patterns) = names.flatMap (ownPatterns filters) := by
  induction names with
  | nil => rfl
  | cons n names ih =>
    rw [List.flatMap_cons, ← ih, ownPatterns]
    cases hget : filters.get? n with
    | none => simp [hget]
    | some f => simp [hget]

theorem value_ofName_of_root (h : Walk filters name .root met last) :
    (ofName filters name).value = .ok (.named name ((met ++ [last]).reverse.flatMap (ownPatterns filters))) := by
  rw [ofName, chainFrom_eq h, ← flatMap_patterns, List.filterMap_reverse]
  rfl

theorem value_ofName_of_missing (h : Walk filters name .missing met last) :
    (ofName filters name).value = .ok (.named name (ownPatterns filters name)) := by
  rw [ofName, chainFrom_eq h]
  rfl

theorem value_ofName_of_circle (h : Walk filters name .circle met last) :
    (ofName filters name).value = .error (.circular (met ++ [last])) := by
  rw [ofName, chainFrom_eq h]
  rfl

/-- What a filter stands for.  The walk along what it extends stops in exactly one way, over distinct names: at a filter
that extends none, and then the patterns of all filters on the way count, those of the last one first; at a missing
filter, and then its own patterns count alone; or at the first name met before, and then the names are reported.  With
the sign a name without blanks at its ends refers to its filter. -/
theorem ofName_walk (filters : Filters) (name : String) :
    (∃! ending, ∃ met last, Walk filters name ending met last) ∧
      (∀ ending met last, Walk filters name ending met last → met.Nodup ∧ met.length ≤ filters.size) ∧
      (∀ met last, Walk filters name .root met last →
        (ofName filters name).value = .ok (.named name ((met ++ [last]).reverse.flatMap (ownPatterns filters)))) ∧
      (∀ met last, Walk filters name .missing met last →
        (ofName filters name).value = .ok (.named name (ownPatterns filters name))) ∧
      (∀ met last, Walk filters name .circle met last →
        (ofName filters name).value = .error (.circular (met ++ [last]))) ∧
      (filters.contains name → Text.trimmed name = name →
        answer filters ("@" ++ name) = (ofName filters name).value) := by
  refine ⟨existsUnique_ending filters name, fun _ _ _ h => ⟨h.nodup, h.length_le⟩, fun _ _ => value_ofName_of_root,
    fun _ _ => value_ofName_of_missing, fun _ _ => value_ofName_of_circle, fun hmem htrim => ?_⟩
  exact answer_signed_of_trimmed htrim hmem

/-- A circle that the filter asked for is not on. -/
theorem ofName_walk_circle_ahead :
    let filters : Filters := SortedMap.ofList
      [("leaf", ⟨["x"], some "mid", none⟩), ("mid", ⟨["y"], some "base", none⟩), ("base", ⟨["z"], some "mid", none⟩)]
    Walk filters "leaf" .circle ["leaf", "mid", "base"] "mid" ∧
      answer filters "@leaf" = .error (.circular ["leaf", "mid", "base", "mid"]) := by
  intro filters
  have hwalk : Walk filters "leaf" .circle ["leaf", "mid", "base"] "mid" :=
    ⟨.link (by decide +kernel) (.link (by decide +kernel) (.link (by decide +kernel) (.start _))),
      by decide +kernel, by decide +kernel⟩
  obtain ⟨-, -, -, -, hcircle, hanswer⟩ := ofName_walk filters "leaf"
  exact ⟨hwalk, (hanswer (by decide +kernel) (by decide +kernel)).trans (hcircle _ _ hwalk)⟩

end FilterSpec

end ScriptRunner
