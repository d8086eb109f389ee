import ScriptRunner.Repository.Detection

/-!
# Commands on a repository

The commands that make a repository and its history: files are entered into the index, committed, checked out on
branches, and branches are merged.  A command that cannot be carried out changes nothing.
-/

namespace ScriptRunner.Repository

/-- A file tree and the repository in it, if there is one. -/
structure Workplace where
  tree : Tree
  repository : Option Repository := none

namespace Workplace

/-- The place with the repository's own files written. -/
def withOwnFiles (p : Workplace) (r : Repository) (touchIndex : Bool) : Workplace :=
  let file (t : Tree) (name text : String) : Tree :=
    (t.put? (some (.file (Text.encode text) 0)) (r.top ++ [ownDir, name])).getD t
  let tree := file p.tree "HEAD" r.headText
  ⟨if touchIndex then file tree "index" indexText else tree, some r⟩

/-! ### The working tree -/

/-- Takes a file out of the working tree, and the directories that become empty. -/
def removeFile (t : Tree) (top : List String) (path : List String) : Tree :=
  let t := (t.put? none (top ++ path)).getD t
  let dirs := (List.range path.length).reverse.map fun n => path.take n
  (dirs.filter fun d => !d.isEmpty).foldl (fun t d =>
    match t.get? (top ++ d) with
    | some (.dir []) => (t.put? none (top ++ d)).getD t
    | _ => t) t

/-- Writes a file into the working tree. -/
def writeFile (t : Tree) (top : List String) (path : List String) (c : Content) (time : Nat) : Tree :=
  let t := (t.makeDirs top ("/".intercalate path.dropLast)).toOption.getD t
  let n : Node := match c with
    | .file data => .file data time
    | .link target => .link target time
  (t.put? (some n) (top ++ path)).getD t

/-- The working tree on its way from one listing to another; nothing if a change would be lost. -/
def moveFiles? (t : Tree) (r : Repository) (time : Nat) (old new : Listing) : Option (Tree × Listing) :=
  let work := Listing.ofDir t r.top
  let paths := (old.keys ++ new.keys).eraseDups.filter fun p => old.get? p ≠ new.get? p
  let isSafe (p : List String) : Bool :=
    work.get? p = new.get? p || (work.get? p = old.get? p && r.index.get? p = old.get? p)
  if paths.all isSafe then
    some (paths.foldl (fun (t, index) p =>
      match new.get? p with
      | some c => (writeFile t r.top p c time, index.insert p c)
      | none => (removeFile t r.top p, index.erase p)) (t, r.index))
  else none

/-! ### Arguments -/

/-- The words of a command that are no options; `valued` are the options that take the next word. -/
def plainWords (valued : List String) : List String → List String
  | [] => []
  | "--" :: rest => rest
  | w :: rest =>
    if valued.contains w then plainWords valued (rest.drop 1)
    else if w.toList.head? = some '-' then plainWords valued rest
    else w :: plainWords valued rest
termination_by ws => ws.length

/-- The word after an option. -/
def valueOf? (names : List String) : List String → Option String
  | w :: v :: rest => if names.contains w then some v else valueOf? names (v :: rest)
  | _ => none

/-- The names along a path from the top. -/
def namesOf (path : String) : List String := (Path.components path).filter fun c => c != "." && c != "/"

/-- Some given path holds a path. -/
def isNamed (given : List String) (path : List String) : Bool := given.any fun g => (namesOf g).isPrefixOf path

/-! ### Commands -/

def initialise (p : Workplace) (top : List String) (words : List String) : Option Workplace :=
  let branch := (valueOf? ["-b", "--initial-branch"] words).getD "master"
  match p.repository.filter (·.isInPlace p.tree) with
  | some _ => some p
  | none => do
    let tree ← (p.tree.makeDirs top ownDir).toOption
    pure (withOwnFiles ⟨tree, none⟩ { top := top, head := .branch branch } false)

/-- Enters files into the index: all, the known ones, or those below some paths. -/
def add (p : Workplace) (r : Repository) (words : List String) : Option Workplace :=
  let work := Listing.ofDir p.tree r.top
  let kept := Listing.kept p.tree r.top
  let updates := words.contains "-u" || words.contains "--update"
  let given := plainWords [] words
  let all := given.isEmpty && (updates || words.contains "-A" || words.contains "--all")
  let inScope (path : List String) : Bool := all || isNamed given path
  let known := r.index.entries.filter fun e => !(inScope e.1 && !work.contains e.1)
  let entered := work.entries.filter fun e =>
    inScope e.1 && (r.index.contains e.1 || (!updates && kept.contains e.1))
  if given.any fun g => !(work.keys ++ r.index.keys).any fun path => isNamed [g] path then none
  else some (withOwnFiles p { r with index := SortedMap.ofList (known ++ entered) } true)

/-- The repository with one more commit of the index, checked out. -/
def withCommit (r : Repository) (parents : List Nat) : Repository :=
  let id := r.commits.length
  let r := { r with commits := r.commits ++ [(⟨parents, r.index⟩ : Commit)] }
  match r.head with
  | .branch name => { r with branches := r.branches.insert name id }
  | .detached _ => { r with head := .detached id }

def commit (p : Workplace) (r : Repository) (words : List String) : Option Workplace :=
  let r := if words.contains "-a" || words.contains "-am" then
      { r with index := tracked r.index (Listing.ofDir p.tree r.top) }
    else r
  let amends := words.contains "--amend"
  let parents := if amends then (r.headCommit?.map r.parentsOf).getD [] else r.headCommit?.toList
  if !amends && !words.contains "--allow-empty" && r.index == r.headListing then none
  else some (withOwnFiles p (withCommit r parents) true)

/-- Checks out another commit. -/
def moveTo (p : Workplace) (r : Repository) (time : Nat) (head : Head) (commit : Nat) : Option Workplace := do
  let (tree, index) ← moveFiles? p.tree r time r.headListing (r.listingOf commit)
  pure (withOwnFiles ⟨tree, none⟩ { r with head := head, index := index } true)

/-- Checks out a branch, a new branch, or a commit. -/
def checkOut (p : Workplace) (r : Repository) (time : Nat) (words : List String) : Option Workplace :=
  let creating := ["-b", "-B", "-c", "-C"]
  let plain := plainWords ("--orphan" :: creating) words
  match valueOf? creating words, valueOf? ["--orphan"] words with
  | some name, _ =>
    if r.branches.contains name && !words.contains "-B" && !words.contains "-C" then none
    else match plain.head?, r.headCommit? with
      | none, none => some (withOwnFiles p { r with head := .branch name } false)
      | start, head => do
        let commit ← match start with
          | some s => r.commitOf? s
          | none => head
        moveTo p { r with branches := r.branches.insert name commit } time (.branch name) commit
  | _, some name => some (withOwnFiles p { r with head := .branch name } false)
  | none, none => do
    let name ← plain.head?
    match r.branches.get? name with
    | some commit => moveTo p r time (.branch name) commit
    | none =>
      let commit ← r.commitOf? name
      moveTo p r time (.detached commit) commit

/-- Makes, moves or removes a branch. -/
def branch (p : Workplace) (r : Repository) (words : List String) : Option Workplace := do
  let has (names : List String) : Bool := words.any names.contains
  let plain := plainWords [] words
  if has ["-d", "-D", "--delete"] then
    let name ← plain.head?
    if r.head = .branch name || !r.branches.contains name then none
    else some { p with repository := some { r with branches := r.branches.erase name } }
  else if has ["-m", "-M", "--move"] then
    let (old, new) ← match plain, r.head with
      | [new], .branch old => some (old, new)
      | [old, new], _ => some (old, new)
      | _, _ => none
    let branches := match r.branches.get? old with
      | some commit => (r.branches.erase old).insert new commit
      | none => r.branches
    let head := if r.head = .branch old then .branch new else r.head
    pure (withOwnFiles p { r with branches := branches, head := head } false)
  else
    let name ← plain.head?
    let commit ← match plain with
      | _ :: start :: _ => r.commitOf? start
      | _ => r.headCommit?
    if r.branches.contains name && !has ["-f", "--force"] then none
    else some { p with repository := some { r with branches := r.branches.insert name commit } }

def tag (p : Workplace) (r : Repository) (words : List String) : Option Workplace := do
  let plain := plainWords ["-m"] words
  let name ← plain.head?
  let commit ← match plain with
    | _ :: start :: _ => r.commitOf? start
    | _ => r.headCommit?
  if r.tags.contains name then none
  else some { p with repository := some { r with tags := r.tags.insert name commit } }

/-- Takes files out of the index, and out of the working tree unless they are to stay there. -/
def remove (p : Workplace) (r : Repository) (words : List String) : Option Workplace :=
  let given := plainWords [] words
  let gone := r.index.keys.filter (isNamed given)
  let tree := if words.contains "--cached" then p.tree else gone.foldl (fun t path => removeFile t r.top path) p.tree
  if gone.isEmpty then none
  else some (withOwnFiles ⟨tree, none⟩ { r with index := gone.foldl (fun i path => i.erase path) r.index } true)

/-- Moves a file or a directory, in the index too. -/
def rename (p : Workplace) (r : Repository) (words : List String) : Option Workplace :=
  match plainWords [] words with
  | [source, target] => do
    let into := match p.tree.resolve r.top target with
      | .ok (_, .dir _) => Path.join target ((Path.baseName? source).getD "")
      | _ => target
    let tree ← (p.tree.rename r.top source into).toOption
    let moved := r.index.entries.map fun e =>
      if isNamed [source] e.1 then (namesOf into ++ e.1.drop (namesOf source).length, e.2) else e
    pure (withOwnFiles ⟨tree, none⟩ { r with index := SortedMap.ofList moved } true)
  | _ => none

/-- The listing that two sides of a merge lead to; nothing if both have changed one file. -/
def merged? (base ours theirs : Listing) : Option Listing :=
  (base.keys ++ ours.keys ++ theirs.keys).eraseDups.foldlM (fun (result : Listing) path =>
    let keep (c : Option Content) : Listing := match c with
      | some c => result.insert path c
      | none => result
    let (b, o, t) := (base.get? path, ours.get? path, theirs.get? path)
    if o = t || t = b then some (keep o) else if o = b then some (keep t) else none) ∅

/-- Merges another commit into the one that is checked out. -/
def merge (p : Workplace) (r : Repository) (time : Nat) (words : List String) : Option Workplace := do
  let other ← ((plainWords ["-m"] words).head?).bind r.commitOf?
  let head ← r.headCommit?
  let base ← r.mergeBase? head other
  if base = other then pure p
  else if base = head && !words.contains "--no-ff" then
    let (tree, index) ← moveFiles? p.tree r time r.headListing (r.listingOf other)
    let r := match r.head with
      | .branch name => { r with branches := r.branches.insert name other, index := index }
      | .detached _ => { r with head := .detached other, index := index }
    pure (withOwnFiles ⟨tree, none⟩ r true)
  else
    let listing ← merged? (r.listingOf base) (r.listingOf head) (r.listingOf other)
    let (tree, index) ← moveFiles? p.tree r time r.headListing listing
    pure (withOwnFiles ⟨tree, none⟩ (withCommit { r with index := index } [head, other]) true)

/-- Sets the branch, the index and perhaps the working tree back to a commit. -/
def reset (p : Workplace) (r : Repository) (time : Nat) (words : List String) : Option Workplace := do
  let commit ← r.commitOf? ((plainWords [] words).headD "HEAD")
  let listing := r.listingOf commit
  let hard := words.contains "--hard"
  let tree :=
    if hard then
      let gone := (r.index.keys ++ r.headListing.keys).filter fun path => !listing.contains path
      let t := gone.foldl (fun t path => removeFile t r.top path) p.tree
      listing.entries.foldl (fun t e => writeFile t r.top e.1 e.2 time) t
    else p.tree
  let r := match r.head with
    | .branch name => { r with branches := r.branches.insert name commit }
    | .detached _ => { r with head := .detached commit }
  pure (withOwnFiles ⟨tree, none⟩ (if words.contains "--soft" then r else { r with index := listing }) true)

/-- A command on the repository that is there. -/
def perform? (p : Workplace) (r : Repository) (time : Nat) (name : String) (words : List String) :
    Option Workplace :=
  match name with
  | "add" => p.add r words
  | "commit" => p.commit r words
  | "checkout" => p.checkOut r time words
  | "switch" => p.checkOut r time words
  | "branch" => p.branch r words
  | "tag" => p.tag r words
  | "rm" => p.remove r words
  | "mv" => p.rename r words
  | "merge" => p.merge r time words
  | "reset" => p.reset r time words
  | _ => none

/-- The place after a command in a directory, at a time. -/
def perform (p : Workplace) (top : List String) (time : Nat) (command : List String) : Workplace :=
  match plainGlobals command with
  | "init" :: words => (p.initialise top words).getD p
  | name :: words =>
    match p.repository.filter (·.isInPlace p.tree) with
    | none => p
    | some r =>
      match r.index? p.tree with
      | none => p
      | some index => (p.perform? { r with index := index } time name words).getD p
  | [] => p
where
  /-- A command without the settings in front of it. -/
  plainGlobals : List String → List String
    | "-c" :: _ :: rest => plainGlobals rest
    | words => words

end Workplace

end ScriptRunner.Repository
