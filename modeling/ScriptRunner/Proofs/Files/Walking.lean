import ScriptRunner.Proofs.Files.Paths

/-!
# Where names lead

`Tree.Leads` says where names lead from a directory, with one rule for each thing that can stand under a name; a walk
finds what it says (`Tree.walk_eq_ok_iff`).  Names that lead somewhere lead through a directory after each of the
first of them (`Leads.split`), and along a place of the tree itself no links are met (`Leads.of_place`).  With that a
path leads to a directory exactly if the system takes the path and its names lead there (`Tree.resolve_eq_dir_iff`).
-/

namespace ScriptRunner

namespace Tree

variable {t : Tree} {links : Nat} {here names as bs p q : List String} {n m : Node}

/-- Where names lead from a directory: `links` symbolic links may be followed, the last name included. -/
inductive Leads (t : Tree) : (links : Nat) → (here names p : List String) → Node → Prop
  | done {links : Nat} {here : List String} {n : Node} (h : t.get? here = some n) : Leads t links here [] here n
  | up {links : Nat} {here rest p : List String} {n : Node} {entries : List (String × Node)}
    (hdir : t.get? here = some (.dir entries)) (h : Leads t links here.dropLast rest p n) :
    Leads t links here (".." :: rest) p n
  | enter {links : Nat} {here rest p : List String} {n child : Node} {entries : List (String × Node)} {name : String}
    (hdir : t.get? here = some (.dir entries)) (hname : name ≠ "..") (hshort : name.utf8ByteSize ≤ maxName)
    (hchild : Node.child? entries name = some child) (hlink : child.isLink = false)
    (h : Leads t links (here ++ [name]) rest p n) : Leads t links here (name :: rest) p n
  | follow {links : Nat} {here rest p : List String} {n : Node} {entries : List (String × Node)} {name target : String}
    {modified : Nat} (hdir : t.get? here = some (.dir entries)) (hname : name ≠ "..")
    (hshort : name.utf8ByteSize ≤ maxName) (hchild : Node.child? entries name = some (.link target modified))
    (h : Leads t links (if (linkNames target).1 then [] else here) ((linkNames target).2 ++ rest) p n) :
    Leads t (links + 1) here (name :: rest) p n

/-- What a walk does at a link. -/
private def goOn (t : Tree) : (links : Nat) → (here names : List String) → Except FileFault (List String × Node)
  | 0 => fun _ _ => .error .tooManyLinks
  | links + 1 => walk t true links

private theorem walk_eq (t : Tree) (links : Nat) : walk t true links = descend t true (goOn t links) := by
  cases links <;> rfl

/-- A walk goes on from the next name: to the directory above, to the entry with this name, or where a link leads. -/
private theorem walk_cons_eq_ok_iff {name : String} {rest : List String} {r : List String × Node} :
    walk t true links here (name :: rest) = .ok r ↔ ∃ entries, t.get? here = some (.dir entries) ∧
      if name = ".." then walk t true links here.dropLast rest = .ok r
      else name.utf8ByteSize ≤ maxName ∧ ∃ child, Node.child? entries name = some child ∧
        match child with
        | .link target _ =>
          goOn t links (if (linkNames target).1 then [] else here) ((linkNames target).2 ++ rest) = .ok r
        | _ => walk t true links (here ++ [name]) rest = .ok r := by
  rw [walk_eq, descend]
  rcases t.get? here with _ | _ | _ | entries
  case some.dir =>
    by_cases hup : name = ".."
    · simp [hup]
    · by_cases hshort : name.utf8ByteSize ≤ maxName
      · rcases hchild : Node.child? entries name with _ | _ | _ | _ <;> simp [hup, hshort, Nat.not_lt.2 hshort, hchild]
      · simp [hup, hshort, Nat.lt_of_not_le hshort]
  all_goals simp

theorem walk_of_leads (h : Leads t links here names p n) : walk t true links here names = .ok (p, n) := by
  induction h with
  | done h => simp [walk_eq, descend, h]
  | up hdir _ ih => exact walk_cons_eq_ok_iff.2 ⟨_, hdir, by rwa [if_pos rfl]⟩
  | @enter _ _ _ _ _ child _ _ hdir hname hshort hchild hlink _ ih =>
    refine walk_cons_eq_ok_iff.2 ⟨_, hdir, ?_⟩
    rw [if_neg hname]
    refine ⟨hshort, child, hchild, ?_⟩
    cases child with
    | link => exact nomatch hlink
    | _ => exact ih
  | follow hdir hname hshort hchild _ ih =>
    refine walk_cons_eq_ok_iff.2 ⟨_, hdir, ?_⟩
    rw [if_neg hname]
    exact ⟨hshort, _, hchild, ih⟩

theorem leads_of_walk (h : walk t true links here names = .ok (p, n)) : Leads t links here names p n := by
  induction links using Nat.strongRecOn generalizing here names with
  | ind links ihlinks =>
    induction names generalizing here with
    | nil =>
      rw [walk_eq, descend] at h
      split at h
      · rename_i n' hhere
        cases h
        exact .done hhere
      · exact nomatch h
    | cons name rest ih =>
      obtain ⟨entries, hdir, h⟩ := walk_cons_eq_ok_iff.1 h
      split at h
      · rename_i hup
        exact hup ▸ .up hdir (ih h)
      · rename_i hname
        obtain ⟨hshort, child, hchild, h⟩ := h
        cases child with
        | link target modified =>
          cases links with
          | zero => exact nomatch h
          | succ links => exact .follow hdir hname hshort hchild (ihlinks links (Nat.lt_succ_self _) h)
        | _ => exact .enter hdir hname hshort hchild rfl (ih h)

theorem walk_eq_ok_iff : walk t true links here names = .ok (p, n) ↔ Leads t links here names p n :=
  ⟨leads_of_walk, walk_of_leads⟩

/-! ### Steps on the way -/

namespace Leads

theorem unique (h : Leads t links here names p n) (h' : Leads t links here names q m) : p = q ∧ n = m := by
  have heq := (walk_eq_ok_iff.2 h).symm.trans (walk_eq_ok_iff.2 h')
  exact Prod.mk.inj (Except.ok.inj heq)

theorem get?_eq (h : Leads t links here names p n) : t.get? p = some n := by
  induction h with
  | done h => exact h
  | up _ _ ih | enter _ _ _ _ _ _ ih | follow _ _ _ _ _ ih => exact ih

/-- There is something where the names start. -/
theorem exists_start (h : Leads t links here names p n) : ∃ m, t.get? here = some m := by
  cases h with
  | done h => exact ⟨_, h⟩
  | up h | enter h | follow h => exact ⟨_, h⟩

/-- The first names lead somewhere, from where the others lead on; links that have been followed count for both. -/
theorem split (h : Leads t links here (as ++ bs) p n) :
    ∃ q m links', Leads t links here as q m ∧ Leads t links' q bs p n := by
  generalize hnames : as ++ bs = names at h
  induction h generalizing as with
  | done h =>
    obtain ⟨rfl, rfl⟩ := List.append_eq_nil_iff.1 hnames
    exact ⟨_, _, 0, .done h, .done h⟩
  | @up links here rest p n entries hdir h ih =>
    cases as with
    | nil =>
      obtain rfl : bs = ".." :: rest := hnames
      exact ⟨here, _, links, .done hdir, .up hdir h⟩
    | cons a as =>
      obtain ⟨rfl, hrest⟩ := List.cons.inj hnames
      obtain ⟨q, m, links', ha, hb⟩ := ih hrest
      exact ⟨q, m, links', .up hdir ha, hb⟩
  | @enter links here rest p n child entries name hdir hname hshort hchild hlink h ih =>
    cases as with
    | nil =>
      obtain rfl : bs = name :: rest := hnames
      exact ⟨here, _, links, .done hdir, .enter hdir hname hshort hchild hlink h⟩
    | cons a as =>
      obtain ⟨rfl, hrest⟩ := List.cons.inj hnames
      obtain ⟨q, m, links', ha, hb⟩ := ih hrest
      exact ⟨q, m, links', .enter hdir hname hshort hchild hlink ha, hb⟩
  | @follow links here rest p n entries name target modified hdir hname hshort hchild h ih =>
    cases as with
    | nil =>
      obtain rfl : bs = name :: rest := hnames
      exact ⟨here, _, links + 1, .done hdir, .follow hdir hname hshort hchild h⟩
    | cons a as =>
      obtain ⟨rfl, rfl⟩ := List.cons.inj hnames
      obtain ⟨q, m, links', ha, hb⟩ := ih (List.append_assoc ..)
      exact ⟨q, m, links', .follow hdir hname hshort hchild ha, hb⟩

/-- A name that leads somewhere is the name of an entry. -/
theorem exists_child {name : String} {rest : List String} (h : Leads t links here (name :: rest) p n)
    (hname : name ≠ "..") :
    ∃ entries child, t.get? here = some (.dir entries) ∧ Node.child? entries name = some child := by
  cases h with
  | up => exact absurd rfl hname
  | enter hdir _ _ hchild => exact ⟨_, _, hdir, hchild⟩
  | follow hdir _ _ hchild => exact ⟨_, _, hdir, hchild⟩

/-- Along a place of the tree no links are met. -/
theorem of_place {place : List String} {entries : List (String × Node)}
    (hplace : t.get? (here ++ place) = some (.dir entries)) (hnames : ∀ name ∈ place, name ≠ "..")
    (h : Leads t links here (place ++ names) p n) : Leads t links (here ++ place) names p n := by
  induction place generalizing here with
  | nil => rwa [List.append_nil]
  | cons name place ih =>
    rw [List.forall_mem_cons] at hnames
    have hrest := hplace
    rw [List.append_cons] at hrest ⊢
    rw [Node.get?_append, Option.bind_eq_some_iff] at hplace
    obtain ⟨top, htop, hbelow⟩ := hplace
    obtain ⟨es, child, rfl, hchild, hget⟩ := Node.get?_cons_eq_some_iff.1 hbelow
    cases h with
    | up => exact absurd rfl hnames.1
    | enter _ _ _ _ _ h => exact ih hrest hnames.2 h
    | follow hdir _ _ hlink =>
      -- a link has nothing below it, and is no directory itself
      obtain rfl := Node.dir.inj (Option.some.inj (htop.symm.trans hdir))
      obtain rfl := Option.some.inj (hchild.symm.trans hlink)
      cases place <;> exact nomatch hget

end Leads

/-! ### Trees whose names are names -/

/-- The names in every directory are in ascending order, and each is one that something in a directory can have. -/
def WellNamed (t : Tree) : Prop :=
  ∀ place entries, t.get? place = some (.dir entries) →
    (entries.map (·.1)).Pairwise (· < ·) ∧ ∀ e ∈ entries, Path.IsName e.1

theorem wellNamed_dir {entries : List (String × Node)} (hsorted : (entries.map (·.1)).Pairwise (· < ·))
    (h : ∀ e ∈ entries, Path.IsName e.1 ∧ WellNamed e.2) : WellNamed (.dir entries) := by
  intro place es hplace
  cases place with
  | nil =>
    obtain rfl := Node.dir.inj (Option.some.inj hplace)
    exact ⟨hsorted, fun e he => (h e he).1⟩
  | cons name place =>
    obtain ⟨_, child, hdir, hchild, hget⟩ := Node.get?_cons_eq_some_iff.1 hplace
    obtain rfl := Node.dir.inj hdir
    exact (h _ (Node.mem_of_child? hchild)).2 place es hget

theorem wellNamed_of_not_isDir {t : Tree} (h : t.isDir = false) : WellNamed t := by
  intro place entries hplace
  cases place with
  | nil =>
    obtain rfl := Option.some.inj hplace
    exact nomatch h
  | cons name place =>
    obtain ⟨_, _, rfl, -⟩ := Node.get?_cons_eq_some_iff.1 hplace
    exact nomatch h

theorem WellNamed.child {entries : List (String × Node)} (ht : WellNamed (.dir entries)) {name : String}
    (h : Node.child? entries name = some n) : Path.IsName name ∧ WellNamed n := by
  refine ⟨(ht [] entries rfl).2 _ (Node.mem_of_child? h), fun place es hplace => ?_⟩
  exact ht (name :: place) es (Node.get?_cons_eq_some_iff.2 ⟨_, _, rfl, h, hplace⟩)

/-- All names on the way to a place are such names. -/
theorem WellNamed.isName_of_get? (ht : t.WellNamed) {place : List String} (h : t.get? place = some n) :
    ∀ name ∈ place, Path.IsName name := by
  induction place generalizing t with
  | nil => exact fun _ hname => absurd hname List.not_mem_nil
  | cons name place ih =>
    obtain ⟨_, child, rfl, hchild, hget⟩ := Node.get?_cons_eq_some_iff.1 h
    exact List.forall_mem_cons.2 ⟨(ht.child hchild).1, ih (ht.child hchild).2 hget⟩

/-! ### Paths -/

/-- A path leads to a directory if the system takes it and its names lead there. -/
theorem resolve_eq_dir_iff {cwd : List String} {path : String} {entries : List (String × Node)} :
    t.resolve cwd path = .ok (p, .dir entries) ↔ Path.Fits path ∧
      Leads t maxLinks (if Path.isAbsolute path then [] else cwd) (Path.names path) p (.dir entries) := by
  unfold resolve Path.Fits
  rw [Path.linkNames_eq]
  split
  · rename_i hempty
    exact ⟨nofun, fun h => absurd (by simpa using hempty) h.1.1⟩
  · rename_i hempty
    split
    · rename_i hnul
      exact ⟨nofun, fun h => absurd (by simpa using hnul) h.1.2.1⟩
    · rename_i hnul
      split
      · rename_i hlong
        exact ⟨nofun, fun h => absurd h.1.2.2 (Nat.not_le.2 hlong)⟩
      · rename_i hshort
        rw [and_iff_right ⟨by simpa using hempty, by simpa using hnul, Nat.not_lt.1 hshort⟩, ← walk_eq_ok_iff]
        dsimp only
        simp only [Bool.true_or]
        rcases t.walk true maxLinks (if Path.isAbsolute path then [] else cwd) (Path.names path) with fault | ⟨q, m⟩
        · exact ⟨nofun, nofun⟩
        · dsimp only
          split
          · rename_i hdir
            refine ⟨nofun, fun h => ?_⟩
            obtain ⟨rfl, rfl⟩ := Prod.mk.inj (Except.ok.inj h)
            simp [Node.isDir] at hdir
          · exact Iff.rfl

theorem hasDir_iff {path : String} :
    t.hasDir path ↔ ∃ place entries, t.resolve [] path = .ok (place, .dir entries) := by
  unfold hasDir
  cases h : t.resolve [] path with
  | error => simp
  | ok r =>
    obtain ⟨place, node⟩ := r
    cases node <;> simp [Node.isDir]

end Tree

end ScriptRunner
