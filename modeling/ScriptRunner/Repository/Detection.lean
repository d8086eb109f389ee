import ScriptRunner.Files.Access
import ScriptRunner.Planning.Selection
import ScriptRunner.Repository.Difference
import ScriptRunner.Repository.Ignore
import ScriptRunner.Text.Quoted

/-!
# Changed members

The files that have changed since the merge base with another commit, as a repository sees them, and the members that
they belong to.  A changed file counts for the deepest of the candidates that holds it (`Member.changedAmong`).
-/

namespace ScriptRunner

namespace Member

/-- The candidates that own a changed file, in their order. -/
def changedAmong (candidates : List Member) (files : List (List String)) : List Member :=
  let owners := (files.filterMap (ownerOf? candidates)).map (·.name)
  candidates.filter fun m => owners.contains m.name

end Member

namespace Repository

/-! ### The repository's own files -/

/-- The directory of the repository's own files. -/
def ownDir : String := ".git"

/-- The file that says what is checked out. -/
def headText (r : Repository) : String :=
  match r.head with
  | .branch name => "ref: refs/heads/" ++ name ++ "\n"
  | .detached commit => String.ofList ((Nat.toDigits 16 (commit + 1)).leftpad 40 '0') ++ "\n"

/-- What stands at the start of a file for the index. -/
def indexText : String := "DIRC"

def ownFile? (r : Repository) (t : Tree) (name : String) : Option (List UInt8) :=
  match t.get? (r.top ++ [ownDir, name]) with
  | some (.file data _) => some data
  | _ => none

/-- The repository's own files are in place. -/
def isInPlace (r : Repository) (t : Tree) : Bool := r.ownFile? t "HEAD" = some (Text.encode r.headText)

/-- The index, unless its file is damaged.  Without a file it is empty. -/
def index? (r : Repository) (t : Tree) : Option Listing :=
  match r.ownFile? t "index" with
  | none => some ∅
  | some data => if data = Text.encode indexText then some r.index else none

/-! ### Listings of changed files -/

/-- The files of the working tree that the index knows, as they are. -/
def tracked (known work : Listing) : Listing :=
  SortedMap.ofList (work.entries.filter fun e => known.contains e.1)

/-- What the repository is asked. -/
inductive Question where
  | top
  /-- Committed since the merge base with a commit. -/
  | committed (baseRef : String)
  | uncommitted
  | untracked

/-- The words of a question. -/
def Question.words : Question → List String
  | top => ["rev-parse", "--show-toplevel"]
  | committed baseRef => ["diff", "--name-only", "-z", baseRef ++ "...HEAD"]
  | uncommitted => ["diff", "--name-only", "-z", "HEAD"]
  | untracked => ["ls-files", "-z", "--others", "--exclude-standard", "--full-name"]

/-- The text of a question. -/
def Question.text (q : Question) : String := " ".intercalate q.words

/-- The commit that a range starts from; nothing stands for the commit that is checked out. -/
def rangeStart? (r : Repository) (baseRef : String) : Option Nat :=
  if baseRef.isEmpty then r.headCommit?
  else if baseRef.toList.head? = some '-' then none
  else r.commitOf? baseRef

/-- The answer to a question: paths from the top of the repository. -/
def answer? (r : Repository) (t : Tree) : Question → Option (List (List String))
  | .top => some []
  | .committed baseRef => do
    let base ← r.rangeStart? baseRef
    let head ← r.headCommit?
    let start ← r.mergeBase? base head
    pure (Difference.paths (r.listingOf start) (r.listingOf head))
  | .uncommitted => do
    let index ← r.index? t
    let head ← r.headCommit?
    let work := Listing.ofDir t r.top
    pure (Difference.paths (r.listingOf head) (tracked index work))
  | .untracked => do
    let index ← r.index? t
    pure ((Listing.kept t r.top).filter fun p => !index.contains p)

/-! ### Detection -/

/-- A question without answer. -/
def unanswered (q : Question) (reason : String) : Failure := .other ["git " ++ q.text ++ " failed: " ++ reason]

/-- A question that cannot even be put. -/
def unasked (q : Question) (f : FileFault) : Failure := .other ["running git " ++ q.text, f.message]

/-- The repository that a directory belongs to. -/
def holding? (r : Option Repository) (t : Tree) (place : List String) : Option Repository :=
  r.filter fun r => r.isInPlace t && r.top.isPrefixOf place && !(r.top ++ [ownDir]).isPrefixOf place

/-- The changed files, by the components of their paths, in ascending order. -/
def changedFiles (r : Option Repository) (t : Tree) (root : String) (o : ChangeOptions) :
    Attempt (List (List String)) := do
  let place ← match t.resolve [] root with
    | .ok (place, .dir _) => pure place
    | .ok _ => throw (unasked .top .notDirectory)
    | .error e => throw (unasked .top e)
  let some r := holding? r t place | throw (unanswered .top "not a repository")
  let questions := [.committed o.baseRef] ++ (if o.uncommitted then [.uncommitted] else []) ++
    if o.untracked then [.untracked] else []
  let answers ← questions.mapM fun q =>
    if q.text.toList.contains '\x00' then throw (unasked q .nulByte)
    else match r.answer? t q with
      | some paths => pure paths
      | none => throw (unanswered q "no answer")
  let files : SortedMap (List String) Unit :=
    SortedMap.ofList (answers.flatten.map fun p => ("/" :: r.top ++ p, ()))
  Attempt.lift (Logged.note .debug "git reported changed files"
    [("count", .number files.size), ("base_ref", .plain o.baseRef)])
  pure files.keys

/-- The detector that asks a repository. -/
def detector (r : Option Repository) (t : Tree) : Detector := fun root candidates options => do
  let files ← changedFiles r t root options
  pure ((Member.changedAmong candidates files).map (·.name))

end Repository

end ScriptRunner
