import Mathlib.Data.List.Sort
import ScriptRunner.Planning.Selection
import ScriptRunner.Proofs.Order.Layering

/-!
# The way to a plan

A request is prepared in four steps: the workspace is loaded, the filter is read, changes are detected, and the members
that are left are put in order.  `Request.Leaves` says which members are left, and `Request.Outcome` what preparing the
request comes to: the first failure, the message that no member is left, or a plan.  Every request has an outcome
(`exists_outcome`), and preparing comes to whatever is one (`Outcome.value_prepare`), so that there is only one.
-/

namespace ScriptRunner

open Relation

/-! ### Steps that may fail -/

theorem except_bind_eq_ok {ε α β : Type} {x : Except ε α} {f : α → Except ε β} {b : β} :
    x >>= f = .ok b ↔ ∃ a, x = .ok a ∧ f a = .ok b := by
  cases x <;> simp [bind, Except.bind]

theorem except_exists_bind {ε α β : Type} {x : Except ε α} {f : α → Except ε β} (hx : ∃ a, x = .ok a)
    (hf : ∀ a, ∃ b, f a = .ok b) : ∃ b, x >>= f = .ok b := by
  obtain ⟨a, rfl⟩ := hx
  exact hf a

theorem except_mapM_eq_ok_iff {ε α β : Type} {f : α → Except ε β} {as : List α} {bs : List β} :
    as.mapM f = .ok bs ↔ List.Forall₂ (fun a b => f a = .ok b) as bs := by
  induction as generalizing bs with
  | nil => simp [pure, Except.pure, eq_comm]
  | cons a as ih =>
    simp only [List.mapM_cons, except_bind_eq_ok, List.forall₂_cons_left_iff, ih]
    constructor
    · rintro ⟨b, hb, bs', hbs', h⟩
      exact ⟨b, bs', hb, hbs', (Except.ok.inj h).symm⟩
    · rintro ⟨b, bs', hb, hbs', rfl⟩
      exact ⟨b, hb, bs', hbs', rfl⟩

theorem except_mem_iff_of_mapM {ε α β : Type} {f : α → Except ε β} {as : List α} {bs : List β}
    (h : as.mapM f = .ok bs) {b : β} : b ∈ bs ↔ ∃ a ∈ as, f a = .ok b := by
  have hall := except_mapM_eq_ok_iff.1 h
  clear h
  induction hall with
  | nil => simp
  | cons hab _ ih => simp [ih, hab, eq_comm]

theorem except_exists_mapM {ε α β : Type} {f : α → Except ε β} {as : List α} (h : ∀ a ∈ as, ∃ b, f a = .ok b) :
    ∃ bs, as.mapM f = .ok bs := by
  induction as with
  | nil => exact ⟨[], rfl⟩
  | cons a as ih =>
    obtain ⟨⟨b, hb⟩, has⟩ := List.forall_mem_cons.1 h
    obtain ⟨bs, hbs⟩ := ih has
    exact ⟨b :: bs, except_mapM_eq_ok_iff.2 (.cons hb (except_mapM_eq_ok_iff.1 hbs))⟩

/-- The first fault is the one that is reported. -/
theorem except_mapM_eq_error {ε α β : Type} {f : α → Except ε β} {before after : List α} {a : α} {e : ε}
    (hbefore : ∀ a ∈ before, ∃ b, f a = .ok b) (ha : f a = .error e) :
    (before ++ a :: after).mapM f = .error e := by
  obtain ⟨bs, hbs⟩ := except_exists_mapM hbefore
  rw [List.mapM_append, hbs, List.mapM_cons, ha]
  rfl

theorem except_forM_eq_ok_iff {ε α : Type} {f : α → Except ε PUnit} {as : List α} :
    as.forM f = .ok () ↔ ∀ a ∈ as, f a = .ok () := by
  induction as with
  | nil => simp [List.forM, pure, Except.pure]
  | cons a as ih =>
    rw [show (a :: as).forM f = f a >>= fun _ => as.forM f from rfl, except_bind_eq_ok, List.forall_mem_cons, ih]
    exact ⟨fun ⟨_, ha, has⟩ => ⟨ha, has⟩, fun ⟨ha, has⟩ => ⟨_, ha, has⟩⟩

theorem except_toOption_eq_some {ε α : Type} {x : Except ε α} {a : α} : x.toOption = some a ↔ x = .ok a := by
  cases x <;> simp [Except.toOption]

namespace Attempt

variable {α β : Type}

theorem value_bind_eq_ok {x : Attempt α} {f : α → Attempt β} {b : β} :
    (x >>= f).run.value = .ok b ↔ ∃ a, x.run.value = .ok a ∧ (f a).run.value = .ok b := by
  simp only [ExceptT.run_bind, Logged.value_bind]
  cases x.run.value <;> simp

theorem value_bind_eq_error {x : Attempt α} {f : α → Attempt β} {e : Failure} :
    (x >>= f).run.value = .error e ↔
      x.run.value = .error e ∨ ∃ a, x.run.value = .ok a ∧ (f a).run.value = .error e := by
  simp only [ExceptT.run_bind, Logged.value_bind]
  cases x.run.value <;> simp

/-- Only what comes after a success counts. -/
theorem bind_congr {x : Attempt α} {f g : α → Attempt β} (h : ∀ a, x.run.value = .ok a → f a = g a) :
    x >>= f = x >>= g := by
  refine ExceptT.ext ?_
  simp only [ExceptT.run_bind]
  change Logged.mk _ _ = Logged.mk _ _
  cases hx : x.run.value with
  | error e => rfl
  | ok a => simp only [h a hx]

@[simp] theorem value_pure (a : α) : (pure a : Attempt α).run.value = .ok a := rfl

@[simp] theorem value_lift (x : Logged α) : (Attempt.lift x).run.value = .ok x.value := rfl

end Attempt

namespace Request

/-! ### Members that are left -/

/-- The members that a filter matches. -/
def matching (spec : FilterSpec) (w : Workspace) : List Member := w.members.filter fun m => spec.selects m.name

/-- The filter of a request. -/
def filterSpec (r : Request) (filters : Filters) : Except FilterError FilterSpec :=
  (FilterSpec.ofExpression filters r.filter).value

/-- The members that are left: those that the filter matches and, if only changed ones are wanted, that the detector
reports among them. -/
inductive Leaves (r : Request) (detect : Detector) (w : Workspace) (spec : FilterSpec) : List Member → Prop
  | unrestricted (h : r.changes = none) : Leaves r detect w spec (w.members.filter fun m => spec.selects m.name)
  | unmatched (h : matching spec w = []) : Leaves r detect w spec []
  | changed {options : ChangeOptions} {reported : List String} (h : r.changes = some options)
    (hne : matching spec w ≠ []) (hd : (detect w.root (matching spec w) options).run.value = .ok reported) :
    Leaves r detect w spec (w.members.filter fun m => spec.selects m.name && reported.contains m.name)

/-- The detector is asked about the members that the filter matches, and fails. -/
def DetectionFails (r : Request) (detect : Detector) (w : Workspace) (spec : FilterSpec) (e : Failure) : Prop :=
  ∃ options, r.changes = some options ∧ matching spec w ≠ [] ∧
    (detect w.root (matching spec w) options).run.value = .error e

/-- What is said when no member is left. -/
def absence (r : Request) (spec : FilterSpec) (w : Workspace) : String :=
  match r.changes with
  | none => Selection.noMatch
  | some options => if matching spec w = [] then Selection.noMatch else Selection.noChange options.baseRef

variable {r : Request} {load : Attempt Workspace} {detect detect' : Detector} {filters : Filters} {w : Workspace}
  {spec : FilterSpec} {selected selected' : List Member} {e e' : Failure}

theorem Leaves.unique (h : r.Leaves detect w spec selected) (h' : r.Leaves detect w spec selected') :
    selected = selected' := by
  cases h with
  | unrestricted hc =>
    cases h' with
    | unrestricted => rfl
    | unmatched hm => exact hm
    | changed hc' => exact nomatch hc.symm.trans hc'
  | unmatched hm =>
    cases h' with
    | unrestricted => exact hm.symm
    | unmatched => rfl
    | changed _ hne => exact absurd hm hne
  | changed hc hne hd =>
    cases h' with
    | unrestricted hc' => exact nomatch hc.symm.trans hc'
    | unmatched hm => exact absurd hm hne
    | changed hc' _ hd' =>
      obtain rfl := Option.some.inj (hc.symm.trans hc')
      obtain rfl := Except.ok.inj (hd.symm.trans hd')
      rfl

/-- The members that are left are in the order of the workspace. -/
theorem Leaves.sublist (h : r.Leaves detect w spec selected) : selected.Sublist w.members := by
  cases h with
  | unmatched => exact List.nil_sublist _
  | unrestricted | changed => exact List.filter_sublist

theorem DetectionFails.unique (h : r.DetectionFails detect w spec e) (h' : r.DetectionFails detect w spec e') :
    e = e' := by
  obtain ⟨options, hc, -, hd⟩ := h
  obtain ⟨options', hc', -, hd'⟩ := h'
  obtain rfl := Option.some.inj (hc.symm.trans hc')
  exact Except.error.inj (hd.symm.trans hd')

theorem DetectionFails.not_leaves (h : r.DetectionFails detect w spec e) : ¬r.Leaves detect w spec selected := by
  obtain ⟨options, hc, hne, hd⟩ := h
  intro hl
  cases hl with
  | unrestricted hc' => exact nomatch hc.symm.trans hc'
  | unmatched hm => exact hne hm
  | changed hc' _ hd' =>
    obtain rfl := Option.some.inj (hc.symm.trans hc')
    exact nomatch hd.symm.trans hd'

/-! ### The steps -/

theorem value_filtered (r : Request) (filters : Filters) (w : Workspace) :
    (Selection.filtered filters r.filter w.members).run.value =
      match r.filterSpec filters with
      | .error err => .error (.ofFilter err)
      | .ok spec => .ok (matching spec w) := by
  unfold Selection.filtered filterSpec
  simp only [ExceptT.run_bind, Logged.value_bind, Attempt.value_lift]
  cases (FilterSpec.ofExpression filters r.filter).value <;> rfl

/-- Narrowing finds the members that are left, or meets the failure of the detector. -/
theorem value_narrowed {options : ChangeOptions} (hc : r.changes = some options) :
    (∃ selected, r.Leaves detect w spec selected ∧
        (Selection.narrowed detect w.root (matching spec w) options).run.value =
          .ok (if selected = [] then .error (r.absence spec w) else .ok selected)) ∨
      ∃ e, r.DetectionFails detect w spec e ∧
        (Selection.narrowed detect w.root (matching spec w) options).run.value = .error e := by
  unfold Selection.narrowed absence
  rw [hc]
  by_cases hm : matching spec w = []
  · refine .inl ⟨[], .unmatched hm, ?_⟩
    simp [hm]
  · rw [if_neg (by simpa using hm)]
    cases hd : (detect w.root (matching spec w) options).run.value with
    | error e =>
      exact .inr ⟨e, ⟨options, hc, hm, hd⟩, Attempt.value_bind_eq_error.2 (.inl hd)⟩
    | ok reported =>
      refine .inl ⟨_, .changed hc hm hd, ?_⟩
      refine Attempt.value_bind_eq_ok.2 ⟨reported, hd, Attempt.value_bind_eq_ok.2 ⟨(), rfl, ?_⟩⟩
      have hkept : ((matching spec w).filter fun m => reported.contains m.name) =
          w.members.filter fun m => spec.selects m.name && reported.contains m.name := by
        simp only [matching, List.filter_filter, Bool.and_comm]
      simp only [Attempt.value_pure, hkept, List.isEmpty_iff, if_neg hm]

theorem value_selection (detect : Detector) (w : Workspace) (hs : r.filterSpec filters = .ok spec) :
    (∃ selected, r.Leaves detect w spec selected ∧
        (r.selection detect filters w).run.value =
          .ok (if selected = [] then .error (r.absence spec w) else .ok selected)) ∨
      ∃ e, r.DetectionFails detect w spec e ∧ (r.selection detect filters w).run.value = .error e := by
  have hfilter : (Selection.filtered filters r.filter w.members).run.value = .ok (matching spec w) := by
    rw [value_filtered, hs]
  unfold selection
  simp only [ExceptT.run_bind, Logged.value_bind, hfilter, Attempt.value_lift]
  cases hc : r.changes with
  | some options => exact value_narrowed hc
  | none =>
    refine .inl ⟨_, .unrestricted hc, ?_⟩
    simp [absence, hc, matching]

/-! ### Outcomes -/

/-- What preparing a request comes to: the first failure, the message that no member is left, or a plan of the members
that are left.  A cycle counts when all of it is among the members that are left. -/
inductive Outcome (r : Request) (load : Attempt Workspace) (detect : Detector) (filters : Filters) :
    Except Failure (Except String Prepared) → Prop
  | loading {e : Failure} (hw : load.run.value = .error e) : Outcome r load detect filters (.error e)
  | filtering {w : Workspace} {err : FilterError} (hw : load.run.value = .ok w)
    (hs : r.filterSpec filters = .error err) : Outcome r load detect filters (.error (.ofFilter err))
  | detecting {w : Workspace} {spec : FilterSpec} {e : Failure} (hw : load.run.value = .ok w)
    (hs : r.filterSpec filters = .ok spec) (hd : r.DetectionFails detect w spec e) :
    Outcome r load detect filters (.error e)
  | cyclic {w : Workspace} {spec : FilterSpec} {selected : List Member} {names : List String}
    (hw : load.run.value = .ok w) (hs : r.filterSpec filters = .ok spec) (hl : r.Leaves detect w spec selected)
    (ho : r.ordered = true) (hc : ∃ x, TransGen (NameEdge (selected.map (·.name)) w.dependencies) x x)
    (hasc : names.Pairwise (· < ·))
    (hn : ∀ x, x ∈ names ↔ TransGen (NameEdge (selected.map (·.name)) w.dependencies) x x) :
    Outcome r load detect filters (.error (.dependencyCycle names))
  | nothing {w : Workspace} {spec : FilterSpec} (hw : load.run.value = .ok w)
    (hs : r.filterSpec filters = .ok spec) (hl : r.Leaves detect w spec []) :
    Outcome r load detect filters (.ok (.error (r.absence spec w)))
  | ready {w : Workspace} {spec : FilterSpec} {selected : List Member} {plan : Plan} (hw : load.run.value = .ok w)
    (hs : r.filterSpec filters = .ok spec) (hl : r.Leaves detect w spec selected) (hne : selected ≠ [])
    (hac : r.ordered = true → ¬∃ x, TransGen (NameEdge (selected.map (·.name)) w.dependencies) x x)
    (hp : (Plan.ofMembers selected w.dependencies r.ordered).value = .ok plan) :
    Outcome r load detect filters (.ok (.ok ⟨w, selected, plan⟩))

/-- Planning the members that are left gives a plan, or the names on cycles among them. -/
theorem value_plan (members : List Member) (deps : Dependencies) (ordered : Bool) :
    ((ordered = true → ¬∃ x, TransGen (NameEdge (members.map (·.name)) deps) x x) ∧
        ∃ plan, (Plan.ofMembers members deps ordered).value = .ok plan ∧ plan.order.Perm members) ∨
      (ordered = true ∧ (∃ x, TransGen (NameEdge (members.map (·.name)) deps) x x) ∧
        (Plan.ofMembers members deps ordered).value = .error (Graph.ofMembers members deps).cycleNames) := by
  cases ordered with
  | false =>
    refine .inl ⟨nofun, Plan.flat members, rfl, ?_⟩
    unfold Plan.flat Plan.order
    cases members <;> simp
  | true =>
    rw [Plan.value_ofMembers_ordered]
    by_cases hc : ∃ x, TransGen (NameEdge (members.map (·.name)) deps) x x
    · exact .inr ⟨rfl, hc, Plan.layered_of_cycle hc⟩
    · exact .inl ⟨fun _ => hc, _, Plan.layered_of_acyclic hc, Plan.order_perm (Plan.layered_of_acyclic hc)⟩

/-- Some outcome describes every request. -/
theorem exists_outcome (r : Request) (load : Attempt Workspace) (detect : Detector) (filters : Filters) :
    ∃ o, Outcome r load detect filters o := by
  cases hw : load.run.value with
  | error e => exact ⟨_, .loading hw⟩
  | ok w =>
    cases hs : r.filterSpec filters with
    | error err => exact ⟨_, .filtering hw hs⟩
    | ok spec =>
      rcases value_selection detect w hs with ⟨selected, hl, -⟩ | ⟨e, hd, -⟩
      · by_cases hne : selected = []
        · subst hne
          exact ⟨_, .nothing hw hs hl⟩
        · rcases value_plan selected w.dependencies r.ordered with ⟨hac, plan, hp, -⟩ | ⟨ho, hc, -⟩
          · exact ⟨_, .ready hw hs hl hne hac hp⟩
          · exact ⟨_, .cyclic hw hs hl ho hc Plan.cycleNames_ofMembers_ascending
              fun _ => Plan.mem_cycleNames_ofMembers⟩
      · exact ⟨_, .detecting hw hs hd⟩

theorem value_selection_of_leaves (hs : r.filterSpec filters = .ok spec) (hl : r.Leaves detect w spec selected) :
    (r.selection detect filters w).run.value =
      .ok (if selected = [] then .error (r.absence spec w) else .ok selected) := by
  rcases value_selection detect w hs with ⟨selected', hl', h⟩ | ⟨e, hd, -⟩
  · rw [h, hl.unique hl']
  · exact absurd hl hd.not_leaves

theorem value_selection_of_fails (hs : r.filterSpec filters = .ok spec) (hd : r.DetectionFails detect w spec e) :
    (r.selection detect filters w).run.value = .error e := by
  rcases value_selection detect w hs with ⟨selected, hl, -⟩ | ⟨e', hd', h⟩
  · exact absurd hl hd.not_leaves
  · rw [h, hd.unique hd']

theorem value_selection_of_error {err : FilterError} (hs : r.filterSpec filters = .error err) :
    (r.selection detect filters w).run.value = .error (.ofFilter err) := by
  have hfilter : (Selection.filtered filters r.filter w.members).run.value = .error (.ofFilter err) := by
    rw [value_filtered, hs]
  exact Attempt.value_bind_eq_error.2 (.inl hfilter)

/-- Preparing a request comes to its outcome. -/
theorem Outcome.value_prepare {o : Except Failure (Except String Prepared)} (h : Outcome r load detect filters o) :
    (r.prepare load detect filters).run.value = o := by
  unfold prepare
  cases h with
  | loading hw => exact Attempt.value_bind_eq_error.2 (.inl hw)
  | filtering hw hs =>
    exact Attempt.value_bind_eq_error.2 (.inr ⟨_, hw, Attempt.value_bind_eq_error.2
      (.inl (value_selection_of_error hs))⟩)
  | detecting hw hs hd =>
    exact Attempt.value_bind_eq_error.2 (.inr ⟨_, hw, Attempt.value_bind_eq_error.2
      (.inl (value_selection_of_fails hs hd))⟩)
  | nothing hw hs hl =>
    exact Attempt.value_bind_eq_ok.2 ⟨_, hw, Attempt.value_bind_eq_ok.2
      ⟨_, (value_selection_of_leaves hs hl).trans (by rw [if_pos rfl]), rfl⟩⟩
  | @cyclic w spec selected names hw hs hl ho hc hasc hn =>
    have hne : selected ≠ [] := by
      rintro rfl
      obtain ⟨x, hx⟩ := hc
      obtain ⟨_, hedge, -⟩ := TransGen.head'_iff.1 hx
      exact absurd hedge.1 (by simp)
    have hnames : names = (Graph.ofMembers selected w.dependencies).cycleNames :=
      hasc.eq_of_mem_iff Plan.cycleNames_ofMembers_ascending fun x => (hn x).trans Plan.mem_cycleNames_ofMembers.symm
    have hp : (Plan.ofMembers selected w.dependencies r.ordered).value = .error names := by
      rw [ho, Plan.value_ofMembers_ordered, Plan.layered_of_cycle hc, hnames]
    refine Attempt.value_bind_eq_error.2 (.inr ⟨_, hw, Attempt.value_bind_eq_error.2 (.inr ⟨.ok selected, ?_, ?_⟩)⟩)
    · rw [value_selection_of_leaves hs hl, if_neg hne]
    · refine Attempt.value_bind_eq_error.2 (.inr ⟨.error names, ?_, rfl⟩)
      rw [Attempt.value_lift, hp]
  | @ready w spec selected plan hw hs hl hne hac hp =>
    refine Attempt.value_bind_eq_ok.2 ⟨_, hw, Attempt.value_bind_eq_ok.2 ⟨.ok selected, ?_, ?_⟩⟩
    · rw [value_selection_of_leaves hs hl, if_neg hne]
    · refine Attempt.value_bind_eq_ok.2 ⟨.ok plan, ?_, rfl⟩
      rw [Attempt.value_lift, hp]

/-- Without order and without a restriction to changed members, the members that the filter matches make a plan. -/
theorem prepare_flat (hw : load.run.value = .ok w) (hs : r.filterSpec filters = .ok spec) (ho : r.ordered = false)
    (hc : r.changes = none) (hne : matching spec w ≠ []) (detect : Detector) :
    (r.prepare load detect filters).run.value = .ok (.ok ⟨w, matching spec w, .flat (matching spec w)⟩) :=
  Outcome.value_prepare (.ready hw hs (.unrestricted hc) hne (by simp [ho]) (by rw [ho]; rfl))

/-- The detector is not asked when all members are wanted, or when the filter matches none. -/
theorem prepare_detector (h : r.changes = none ∨
      ∀ w spec, load.run.value = .ok w → r.filterSpec filters = .ok spec → matching spec w = []) :
    r.prepare load detect' filters = r.prepare load detect filters := by
  have hsel : ∀ w, load.run.value = .ok w → r.selection detect' filters w = r.selection detect filters w := by
    intro w hw
    refine Attempt.bind_congr fun matched hmatched => Attempt.bind_congr fun _ _ => ?_
    rcases h with hc | hm
    · rw [hc]
    · -- no member is matched, so that narrowing stops before the detector
      rw [value_filtered] at hmatched
      cases hs : r.filterSpec filters with
      | error err => simp [hs] at hmatched
      | ok spec =>
        rw [hs] at hmatched
        obtain rfl := Except.ok.inj hmatched
        simp [Selection.narrowed, hm w spec hw hs]
  refine Attempt.bind_congr fun w hw => ?_
  rw [hsel w hw]

theorem outcome_prepare (r : Request) (load : Attempt Workspace) (detect : Detector) (filters : Filters) :
    Outcome r load detect filters (r.prepare load detect filters).run.value := by
  obtain ⟨o, h⟩ := exists_outcome r load detect filters
  rw [h.value_prepare]
  exact h

/-- A plan holds the members that are left, in an order of its own. -/
theorem Outcome.ready_perm {p : Prepared} (h : Outcome r load detect filters (.ok (.ok p))) :
    load.run.value = .ok p.workspace ∧ p.plan.order.Perm p.selected ∧ p.selected.Sublist p.workspace.members := by
  cases h with
  | @ready w _ selected plan hw _ hl _ _ hplan =>
    refine ⟨hw, ?_, hl.sublist⟩
    rcases value_plan selected w.dependencies r.ordered with ⟨-, plan', hp', hperm⟩ | ⟨-, -, hp'⟩
    · obtain rfl := Except.ok.inj (hplan.symm.trans hp')
      exact hperm
    · exact nomatch hplan.symm.trans hp'

/-- Preparing a request comes to its outcome and to no other; a plan holds the members that are left, each as often as
the selection does, in the order of the workspace; and without a restriction to changed members, or without a member
that the filter matches, nothing depends on the detector. -/
theorem prepare_iff_outcome (r : Request) (load : Attempt Workspace) (detect : Detector) (filters : Filters) :
    (∀ o, (r.prepare load detect filters).run.value = o ↔ Outcome r load detect filters o) ∧
      (∀ p, (r.prepare load detect filters).run.value = .ok (.ok p) →
        p.plan.order.Perm p.selected ∧ p.selected.Sublist p.workspace.members) ∧
      ∀ detect', (r.changes = none ∨
          ∀ w spec, load.run.value = .ok w → r.filterSpec filters = .ok spec → matching spec w = []) →
        r.prepare load detect' filters = r.prepare load detect filters := by
  refine ⟨fun o => ⟨fun h => h ▸ outcome_prepare r load detect filters, Outcome.value_prepare⟩, fun p hp => ?_,
    fun _ => prepare_detector⟩
  have hready := outcome_prepare r load detect filters
  rw [hp] at hready
  exact hready.ready_perm.2

/-- A cycle beside the selection does no harm, nor does a detector that fails when no member is matched. -/
theorem prepare_iff_outcome_cycle_outside :
    let web : Member := ⟨"web", "web", "/ws/web", none, none⟩
    let core : Member := ⟨"core", "core", "/ws/core", none, none⟩
    let cli : Member := ⟨"cli", "cli", "/ws/cli", none, none⟩
    let ws : Workspace := ⟨"/ws", [web, core, cli], SortedMap.ofList [("core", ["cli"]), ("cli", ["core", "web"])]⟩
    (∃ p, (prepare ⟨some "web, cli", true, some {}⟩ (pure ws) (fun _ _ _ => pure ["core", "web"]) ∅).run.value =
        .ok (.ok p) ∧ p.selected = [web] ∧ p.plan.order.Perm [web]) ∧
      prepare ⟨some "docs", true, some {}⟩ (pure ws) (fun _ _ _ => throw .toml) ∅ =
        prepare ⟨some "docs", true, some {}⟩ (pure ws) (fun _ _ _ => pure ["web"]) ∅ := by
  intro web core cli ws
  have hs : filterSpec ⟨some "web, cli", true, some {}⟩ ∅ = .ok (.literal ["web", "cli"]) := rfl
  have hkept : (ws.members.filter fun m =>
      (FilterSpec.literal ["web", "cli"]).selects m.name && ["core", "web"].contains m.name) = [web] := by
    decide +kernel
  have hmatching : matching (.literal ["web", "cli"]) ws = [web, cli] := by decide +kernel
  have hl : Leaves ⟨some "web, cli", true, some {}⟩ (fun _ _ _ => pure ["core", "web"]) ws
      (.literal ["web", "cli"]) [web] := by
    rw [← hkept]
    exact .changed rfl (by rw [hmatching]; exact nofun) rfl
  have hac : ¬∃ x, TransGen (NameEdge ([web].map (·.name)) ws.dependencies) x x := by
    rintro ⟨x, hx⟩
    obtain ⟨y, ⟨-, hy, targets, hget, -⟩, -⟩ := TransGen.head'_iff.1 hx
    obtain rfl : y = "web" := List.mem_singleton.1 hy
    have hnone : ws.dependencies.get? "web" = none := by decide +kernel
    exact nomatch hnone.symm.trans hget
  obtain ⟨-, plan, hp, -⟩ := (value_plan [web] ws.dependencies true).resolve_right fun h => hac h.2.1
  obtain ⟨h, hperm, -⟩ := prepare_iff_outcome ⟨some "web, cli", true, some {}⟩ (pure ws)
    (fun _ _ _ => pure ["core", "web"]) ∅
  have hout := (h _).2 (.ready rfl hs hl (List.cons_ne_nil _ _) (fun _ => hac) hp)
  refine ⟨⟨_, hout, rfl, (hperm _ hout).1⟩, ?_⟩
  refine (prepare_iff_outcome _ _ _ _).2.2 _ (.inr fun w spec hw hs => ?_)
  obtain rfl : ws = w := Except.ok.inj hw
  obtain rfl : FilterSpec.literal ["docs"] = spec := Except.ok.inj hs
  decide +kernel

end Request

end ScriptRunner
