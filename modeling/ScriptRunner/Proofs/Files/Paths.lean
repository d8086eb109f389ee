import Mathlib.Data.List.Induction
import ScriptRunner.Files.Access

/-!
# Names and paths

The names of a path are what stands between its slashes.  Below a directory a path is made by adding one name after
another (`Path.below`).  Its names are those of the directory and the ones added (`Path.names_below`), and it does not
matter whether they are put together before they are added (`Path.join_ofNames`).
-/

namespace ScriptRunner

namespace Path

/-- A name that something in a directory can have. -/
def IsName (name : String) : Prop := name ≠ "" ∧ name ≠ "." ∧ name ≠ ".." ∧ '/' ∉ name.toList

instance (name : String) : Decidable (IsName name) := inferInstanceAs (Decidable (_ ∧ _ ∧ _ ∧ _))

/-- The names along a path. -/
def names (path : String) : List String :=
  ((Text.splitOn '/' path.toList).map String.ofList).filter fun p => p != "" && p != "."

/-- The path that consists of some names. -/
def ofNames (names : List String) : String := "/".intercalate names

/-- The path that some names lead to from a directory, one after another. -/
def below (dir : String) (names : List String) : String := names.foldl join dir

/-- A path of a length that the system takes, without a NUL. -/
def Fits (path : String) : Prop := path ≠ "" ∧ '\x00' ∉ path.toList ∧ path.utf8ByteSize ≤ 4095

variable {dir name path : String} {ns : List String}

/-! ### The names of a path -/

theorem ne_slash_of_mem_names {path name : String} (h : name ∈ names path) : name ≠ "/" := by
  rintro rfl
  obtain ⟨p, hp, hslash⟩ := List.mem_map.1 (List.mem_filter.1 h).1
  refine Text.not_mem_of_mem_splitOn hp ?_
  rw [← String.toList_ofList (l := p), hslash]
  decide

theorem linkNames_eq (path : String) : Tree.linkNames path = (isAbsolute path, names path) := by
  have hnames : (names path).filter (fun c => c != "/" && c != ".") = names path := by
    refine List.filter_eq_self.2 fun name hname => ?_
    have hpoint := (List.mem_filter.1 hname).2
    simp only [Bool.and_eq_true, bne_iff_ne] at hpoint ⊢
    exact ⟨ne_slash_of_mem_names hname, hpoint.2⟩
  refine Prod.ext rfl ?_
  unfold Tree.linkNames components
  dsimp only
  split
  · exact hnames
  · split <;> exact hnames

theorem names_append_slash (path path' : String) : names (path ++ "/" ++ path') = names path ++ names path' := by
  have hslash : (path ++ "/" ++ path').toList = path.toList ++ '/' :: path'.toList := by simp
  simp only [names, hslash, Text.splitOn_append_cons, List.map_append, List.filter_append]

theorem names_of_isName (h : IsName name) : names name = [name] := by
  obtain ⟨hempty, hpoint, -, hslash⟩ := h
  simp [names, Text.splitOn_of_not_mem hslash, hempty, hpoint]

theorem names_ofNames (h : ∀ name ∈ ns, IsName name) : names (ofNames ns) = ns := by
  induction ns with
  | nil => rfl
  | cons name ns ih =>
    rw [List.forall_mem_cons] at h
    cases ns with
    | nil => rw [ofNames, String.intercalate_singleton, names_of_isName h.1]
    | cons name' ns =>
      rw [ofNames, String.intercalate_cons_cons, names_append_slash, names_of_isName h.1]
      exact congrArg (name :: ·) (ih h.2)

/-- A path from the top has the names that it is made of. -/
theorem names_ofComponents (h : ∀ name ∈ ns, IsName name) : names (ofComponents ("/" :: ns)) = ns := by
  have hslash : ofComponents ("/" :: ns) = "" ++ "/" ++ ofNames ns := by
    rw [String.empty_append]
    rfl
  rw [hslash, names_append_slash, names_ofNames h]
  rfl

theorem isAbsolute_ofComponents (ns : List String) : isAbsolute (ofComponents ("/" :: ns)) := by
  simp [isAbsolute, ofComponents]

/-! ### Adding names -/

theorem IsName.isAbsolute (h : IsName name) : isAbsolute name = false := by
  unfold Path.isAbsolute
  cases hc : name.toList with
  | nil => rfl
  | cons c cs =>
    have hne : c ≠ '/' := by
      rintro rfl
      exact h.2.2.2 (hc ▸ List.mem_cons_self)
    simpa using hne

theorem IsName.getLast?_ne (h : IsName name) : name.toList.getLast? ≠ some '/' :=
  fun hlast => h.2.2.2 (List.mem_of_getLast? hlast)

/-- A path is added with a slash, unless there is one. -/
theorem join_eq (hdir : dir ≠ "") (h : isAbsolute path = false) :
    join dir path = if dir.toList.getLast? = some '/' then dir ++ path else dir ++ "/" ++ path := by
  rw [join, h, Bool.false_or, if_neg (by simpa using hdir)]

theorem join_ne_empty (hdir : dir ≠ "") (h : IsName name) : join dir name ≠ "" := by
  rw [join_eq hdir h.isAbsolute]
  split <;> simp [hdir]

theorem names_join (hdir : dir ≠ "") (h : IsName name) : names (join dir name) = names dir ++ [name] := by
  rw [join_eq hdir h.isAbsolute]
  split
  · rename_i hlast
    obtain ⟨cs, hcs⟩ := List.getLast?_eq_some_iff.1 hlast
    have hslash : dir = String.ofList cs ++ "/" := String.toList_inj.1 (by simp [hcs])
    have hnames : names dir = names (String.ofList cs) := by
      rw [hslash, ← String.append_empty (s := String.ofList cs ++ "/"), names_append_slash]
      exact List.append_nil _
    rw [hnames, hslash, names_append_slash, names_of_isName h]
  · rw [names_append_slash, names_of_isName h]

theorem below_concat (dir : String) (ns : List String) (name : String) :
    below dir (ns ++ [name]) = join (below dir ns) name := List.foldl_append

theorem below_ne_empty (hdir : dir ≠ "") (h : ∀ name ∈ ns, IsName name) : below dir ns ≠ "" := by
  induction ns using List.reverseRecOn with
  | nil => exact hdir
  | append_singleton ns name ih =>
    rw [List.forall_mem_append, List.forall_mem_singleton] at h
    rw [below_concat]
    exact join_ne_empty (ih h.1) h.2

theorem names_below (hdir : dir ≠ "") (h : ∀ name ∈ ns, IsName name) : names (below dir ns) = names dir ++ ns := by
  induction ns using List.reverseRecOn with
  | nil => exact (List.append_nil _).symm
  | append_singleton ns name ih =>
    rw [List.forall_mem_append, List.forall_mem_singleton] at h
    rw [below_concat, names_join (below_ne_empty hdir h.1) h.2, ih h.1, List.append_assoc]

theorem isAbsolute_append (hne : path ≠ "") (s : String) : isAbsolute (path ++ s) = isAbsolute path := by
  unfold isAbsolute
  cases hc : path.toList with
  | nil => exact absurd (String.toList_inj.1 hc) hne
  | cons => rw [String.toList_append, hc, List.cons_append, List.head?_cons, List.head?_cons]

/-- What a path is joined to stays in front of it. -/
theorem exists_join_eq_append (hdir : dir ≠ "") (h : IsName name) : ∃ s, join dir name = dir ++ s := by
  rw [join_eq hdir h.isAbsolute]
  split
  · exact ⟨_, rfl⟩
  · exact ⟨_, String.append_assoc ..⟩

theorem exists_below_eq_append (hdir : dir ≠ "") {ms : List String} (h : ∀ name ∈ ns ++ ms, IsName name) :
    ∃ s, below dir (ns ++ ms) = below dir ns ++ s := by
  induction ms using List.reverseRecOn with
  | nil => exact ⟨"", by rw [List.append_nil, String.append_empty]⟩
  | append_singleton ms name ih =>
    rw [← List.append_assoc, List.forall_mem_append, List.forall_mem_singleton] at h
    obtain ⟨s, hs⟩ := ih h.1
    obtain ⟨s', hs'⟩ := exists_join_eq_append (below_ne_empty hdir h.1) h.2
    exact ⟨s ++ s', by rw [← List.append_assoc, below_concat, hs', hs, String.append_assoc]⟩

theorem isAbsolute_below (hdir : isAbsolute dir) (h : ∀ name ∈ ns, IsName name) : isAbsolute (below dir ns) := by
  have hne : dir ≠ "" := by
    rintro rfl
    exact nomatch hdir
  have hbelow : ∀ name ∈ [] ++ ns, IsName name := h
  obtain ⟨s, hs⟩ := exists_below_eq_append hne hbelow
  rw [List.nil_append] at hs
  rw [hs]
  exact (isAbsolute_append hne s).trans hdir

/-- The system takes every path that a path it takes begins with. -/
theorem Fits.of_append {path s : String} (hne : path ≠ "") (h : Fits (path ++ s)) : Fits path := by
  obtain ⟨-, hnul, hlen⟩ := h
  refine ⟨hne, fun hm => hnul ?_, ?_⟩
  · rw [String.toList_append]
    exact List.mem_append_left _ hm
  · rw [String.utf8ByteSize_append] at hlen
    omega

/-! ### Names put together -/

theorem ofNames_concat {ns : List String} (hne : ns ≠ []) (name : String) :
    ofNames (ns ++ [name]) = ofNames ns ++ "/" ++ name := by
  rw [ofNames, String.intercalate_append_of_ne_nil hne (List.cons_ne_nil _ _), String.intercalate_singleton]
  rfl

theorem ofNames_eq_empty_iff (h : ∀ name ∈ ns, IsName name) : ofNames ns = "" ↔ ns = [] := by
  constructor
  · intro hempty
    rw [← names_ofNames h, hempty]
    rfl
  · rintro rfl
    rfl

theorem isAbsolute_ofNames (h : ∀ name ∈ ns, IsName name) : isAbsolute (ofNames ns) = false := by
  cases ns with
  | nil => rfl
  | cons name ns =>
    cases ns with
    | nil => exact (h name List.mem_cons_self).isAbsolute
    | cons name' ns =>
      have hname := h name List.mem_cons_self
      rw [ofNames, String.intercalate_cons_cons, String.append_assoc, isAbsolute_append hname.1, hname.isAbsolute]

theorem getLast?_join (hdir : dir ≠ "") (h : IsName name) : (join dir name).toList.getLast? ≠ some '/' := by
  have hlast : ∀ s : String, (s ++ name).toList.getLast? ≠ some '/' := fun s => by
    rw [String.toList_append, List.getLast?_append]
    cases hc : name.toList.getLast? with
    | none => exact absurd (String.toList_inj.1 (List.getLast?_eq_none_iff.1 hc)) h.1
    | some c =>
      rw [Option.some_or, ← hc]
      exact h.getLast?_ne
  rw [join_eq hdir h.isAbsolute]
  split <;> exact hlast _

/-- Names may be put together before they are added to a directory. -/
theorem join_ofNames (hdir : dir ≠ "") (h : ∀ name ∈ ns, IsName name) (hne : ns ≠ []) :
    join dir (ofNames ns) = below dir ns := by
  induction ns using List.reverseRecOn with
  | nil => exact absurd rfl hne
  | append_singleton ns name ih =>
    rw [List.forall_mem_append, List.forall_mem_singleton] at h
    rcases List.eq_nil_or_concat ns with rfl | ⟨ms, last, hns⟩
    · rw [List.nil_append, ofNames, String.intercalate_singleton]
      rfl
    · rw [List.concat_eq_append] at hns
      have hne' : ns ≠ [] := by simp [hns]
      have hempty := mt (ofNames_eq_empty_iff h.1).1 hne'
      have hrel : isAbsolute (ofNames ns ++ ("/" ++ name)) = false :=
        (isAbsolute_append hempty _).trans (isAbsolute_ofNames h.1)
      have hlast : (below dir ns).toList.getLast? ≠ some '/' := by
        rw [hns, List.forall_mem_append, List.forall_mem_singleton] at h
        rw [hns, below_concat]
        exact getLast?_join (below_ne_empty hdir h.1.1) h.1.2
      rw [below_concat, join_eq (below_ne_empty hdir h.1) h.2.isAbsolute, if_neg hlast, ← ih h.1 hne',
        ofNames_concat hne', String.append_assoc, join_eq hdir hrel, join_eq hdir (isAbsolute_ofNames h.1)]
      split <;> simp only [String.append_assoc]

end Path

end ScriptRunner
