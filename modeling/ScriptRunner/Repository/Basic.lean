import ScriptRunner.Files.Tree

/-!
# Repositories

A repository keeps the history of the files below its top as commits.  Commits are numbered in the order in which they
are made, so the parents of a commit have smaller numbers.  `mergeBase?` is the latest commit that two commits have in
common.  Branches, tags and a few suffixes name commits: `commitOf?`.
-/

namespace ScriptRunner

/-- What a repository keeps of a file. -/
inductive Content where
  | file (data : List UInt8)
  | link (target : String)
  deriving DecidableEq, Repr

/-- Files, by the names along their paths from the top. -/
abbrev Listing := SortedMap (List String) Content

structure Commit where
  parents : List Nat
  listing : Listing

/-- What is checked out. -/
inductive Head where
  /-- A branch, which may have no commit yet. -/
  | branch (name : String)
  | detached (commit : Nat)
  deriving DecidableEq, Repr

structure Repository where
  /-- The directory that holds the repository, by the names from the top of the file tree. -/
  top : List String
  commits : List Commit := []
  branches : SortedMap String Nat := ∅
  tags : SortedMap String Nat := ∅
  head : Head := .branch "master"
  /-- What the next commit will hold. -/
  index : Listing := ∅

namespace Listing

/-- The files of a directory at `rel`, without the repository's own. -/
def ofEntries (rel : List String) : List (String × Node) → List (List String × Content)
  | [] => []
  | (name, .file data _) :: rest => (rel ++ [name], .file data) :: ofEntries rel rest
  | (name, .link target _) :: rest => (rel ++ [name], .link target) :: ofEntries rel rest
  | (name, .dir entries) :: rest =>
    (if name = ".git" then [] else ofEntries (rel ++ [name]) entries) ++ ofEntries rel rest
  | (_, .device _) :: rest => ofEntries rel rest

/-- The files below a directory. -/
def ofDir (t : Node) (top : List String) : Listing :=
  match t.get? top with
  | some (.dir entries) => SortedMap.ofList (ofEntries [] entries)
  | _ => ∅

end Listing

namespace Repository

def headCommit? (r : Repository) : Option Nat :=
  match r.head with
  | .branch name => r.branches.get? name
  | .detached commit => some commit

/-- The files of a commit. -/
def listingOf (r : Repository) (commit : Nat) : Listing := ((r.commits[commit]?).map (·.listing)).getD ∅

/-- The files of the commit that is checked out. -/
def headListing (r : Repository) : Listing := (r.headCommit?.map r.listingOf).getD ∅

def parentsOf (r : Repository) (commit : Nat) : List Nat := ((r.commits[commit]?).map (·.parents)).getD []

/-- A commit and everything before it in its history. -/
def history (r : Repository) (commit : Nat) : List Nat :=
  (List.range (commit + 1)).reverse.foldl
    (fun seen c => if seen.contains c then seen ++ (r.parentsOf c).filter fun p => !seen.contains p else seen) [commit]

/-- The latest commit in the histories of two commits. -/
def mergeBase? (r : Repository) (a b : Nat) : Option Nat :=
  let others := r.history b
  ((r.history a).filter others.contains).max?

/-! ### Names of commits -/

/-- The commit of a name that says whether it is a branch or a tag. -/
def commitOfRef? (r : Repository) (name : String) : Option Nat :=
  match name.dropPrefix? "heads/", name.dropPrefix? "tags/" with
  | some rest, _ => r.branches.get? rest.toString
  | _, some rest => r.tags.get? rest.toString
  | none, none => none

/-- The commit that a plain name stands for; of a tag and a branch of one name the tag. -/
def commitOfName? (r : Repository) (name : String) : Option Nat :=
  if name = "HEAD" || name = "@" then r.headCommit?
  else
    (((name.dropPrefix? "refs/").bind fun rest => r.commitOfRef? rest.toString).or (r.commitOfRef? name)).or
      ((r.tags.get? name).or (r.branches.get? name))

/-- One suffix of a name: so many first parents back, or the parent of a number. -/
inductive Suffix where
  | back (count : Nat)
  | parent (number : Nat)

/-- The suffixes at the end of a name. -/
def suffixes? (s : List Char) : Option (List Suffix) :=
  match s with
  | [] => some []
  | c :: rest =>
    let digits := rest.takeWhile Char.isDigit
    let number := if digits.isEmpty then 1 else digits.foldl (fun n c => 10 * n + (c.toNat - '0'.toNat)) 0
    if c = '~' then (suffixes? (rest.dropWhile Char.isDigit)).map (.back number :: ·)
    else if c = '^' then (suffixes? (rest.dropWhile Char.isDigit)).map (.parent number :: ·)
    else none
termination_by s.length
decreasing_by all_goals
  have := (List.dropWhile_sublist (l := rest) Char.isDigit).length_le
  simp only [List.length_cons]
  omega

def firstParent? (r : Repository) (commit : Nat) : Option Nat := (r.parentsOf commit).head?

def Suffix.apply (r : Repository) (commit : Nat) : Suffix → Option Nat
  | back count => (List.replicate count ()).foldlM (fun c _ => r.firstParent? c) commit
  | parent 0 => some commit
  | parent (n + 1) => (r.parentsOf commit)[n]?

/-- The commit that a name with suffixes stands for. -/
def commitOf? (r : Repository) (name : String) : Option Nat := do
  let isMark (c : Char) : Bool := c = '~' || c = '^'
  let plain := name.toList.takeWhile fun c => !isMark c
  let steps ← suffixes? (name.toList.dropWhile fun c => !isMark c)
  let commit ← r.commitOfName? (String.ofList plain)
  steps.foldlM (fun c s => s.apply r c) commit

end Repository

end ScriptRunner
