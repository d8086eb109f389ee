import ScriptRunner.Glob.Parser
import ScriptRunner.Glob.Set
import ScriptRunner.Planning.Selection
import ScriptRunner.Manifest.File

/-!
# Discovery

The members of a workspace are the directories below its top that some plain member glob matches and no negated one,
and that have a manifest.  The search goes at most `maxDepth` levels down and passes over hidden directories and
installed packages.  Of members with one name the first is kept.
-/

namespace ScriptRunner

namespace Discovery

/-- Directories that are never searched. -/
def skippedDirs : List String := ["node_modules"]

/-- How far below the top members are searched for. -/
def maxDepth : Nat := 8

/-- The plain and the negated globs of a member list. -/
structure MemberGlobs where
  included : List Glob
  excluded : List Glob

/-- A pattern without what does not matter: points and slashes in front, slashes at the end. -/
def trimPattern (pattern : List Char) : List Char :=
  let rec front : List Char → List Char
    | '.' :: '/' :: rest => front rest
    | rest => rest
  ((front pattern).reverse.dropWhile (· = '/')).reverse

/-- The glob of a member pattern, and whether it is negated. -/
def memberGlob (pattern : String) : Except Failure (Bool × Glob) :=
  let (negated, body) := match pattern.toList with
    | '!' :: rest => (true, rest)
    | chars => (false, chars)
  match Glob.parse (String.ofList (trimPattern body)) true with
  | .ok g => .ok (negated, g)
  | .error e => .error (.config ("invalid workspace member glob '" ++ pattern ++ "': " ++ e.message))

def MemberGlobs.ofPatterns (patterns : List String) : Except Failure MemberGlobs := do
  let globs ← patterns.mapM memberGlob
  pure ⟨(globs.filter fun g => !g.1).map (·.2), (globs.filter (·.1)).map (·.2)⟩

/-- The globs select a directory. -/
def MemberGlobs.selects (g : MemberGlobs) (path : String) : Bool :=
  Glob.anyMatches g.included path && !Glob.anyMatches g.excluded path

/-- A name that the search passes over. -/
def isSkipped (name : String) : Bool := name.toList.head? = some '.' || skippedDirs.contains name

/-- The names of the directories in a directory, links to directories included. -/
def subdirs (t : Tree) (dir : String) : Except FileFault (List String) :=
  match t.resolve [] dir with
  | .error e => .error e
  | .ok (_, .dir entries) => .ok ((entries.map (·.1)).filter fun name => t.hasDir (Path.join dir name))
  | .ok _ => .error .notDirectory

/-- The path under which a directory is looked at: backslashes count as slashes. -/
def spelled (path : String) : String := path.map fun c => if c = '\\' then '/' else c

/-- The directories below `rel`, each before those below it, as paths from the top. -/
def candidates (t : Tree) (root : String) : Nat → (rel : String) → Except Failure (List String)
  | 0, _ => .ok []
  | depth + 1, rel =>
    let dir := if rel.isEmpty then root else Path.join root rel
    match subdirs t dir with
    | .error e => .error (.other ["reading directory " ++ Text.quoted dir, e.message])
    | .ok names => do
      let below ← (names.filter fun name => !isSkipped name).mapM fun name => do
        let path := if rel.isEmpty then name else rel ++ "/" ++ name
        let deeper ← candidates t root depth path
        pure (spelled path :: deeper)
      pure below.flatten

/-- The member of a directory with a manifest. -/
def memberOf (t : Tree) (root rel : String) (manifest : Manifest) : Member :=
  let dir := Path.join root rel
  { name := manifest.name.getD ((Path.baseName? dir).getD "")
    path := rel
    dir := dir
    manifest := some (Path.join dir Manifest.fileName)
    lockfile := (Manifest.lockfiles.map (Path.join dir)).find? t.hasFile }

/-- The members found so far, with their manifests. -/
abbrev Found := List (Member × Manifest)

/-- Looks at one directory. -/
def examine (t : Tree) (root : String) (globs : MemberGlobs) (found : Found) (rel : String) : Attempt Found :=
  if !globs.selects rel then pure found
  else match Manifest.read t (Path.join root rel) with
    | .error reasons => throw (.other reasons)
    | .ok none => do
      Attempt.lift (Logged.note .debug "matched directory has no package.json; skipping" [("path", .plain rel)])
      pure found
    | .ok (some manifest) =>
      let m := memberOf t root rel manifest
      if found.any fun f => f.1.name = m.name then do
        Attempt.lift (Logged.note .warn "duplicate member name; keeping the first"
          [("member", .plain m.name), ("path", .plain rel)])
        pure found
      else pure (found ++ [(m, manifest)])

/-- What each member depends on among the others. -/
def dependenciesOf (found : Found) : Dependencies :=
  let names := found.map (·.1.name)
  SortedMap.ofList (found.map fun f =>
    (f.1.name, f.2.dependencies.filter fun d => d ≠ f.1.name && names.contains d))

/-- The member globs: those of the project config, else those of the manifest at the top. -/
def globsOf (t : Tree) (configured : Option (List String)) (root : String) : Except Failure (List String) :=
  match configured with
  | some globs => .ok globs
  | none =>
    match Manifest.read t root with
    | .error reasons => .error (.other reasons)
    | .ok manifest =>
      match manifest.bind (·.workspaces) with
      | some globs => .ok globs
      | none => .error (.workspaceNotFound root)

end Discovery

open Discovery in
/-- The workspace at a path. -/
def Workspace.load (t : Tree) (cwd : List String) (configured : Option (List String)) (path : String) :
    Attempt Workspace := do
  let root ← match t.canonical cwd path with
    | .ok root => pure root
    | .error e => throw (.other ["resolving workspace root " ++ Text.quoted path, e.message])
  let patterns ← liftExcept (globsOf t configured root)
  let globs ← liftExcept (MemberGlobs.ofPatterns patterns)
  let dirs ← liftExcept (candidates t root maxDepth "")
  let found ← dirs.foldlM (examine t root globs) []
  Attempt.lift (Logged.note .info "loaded workspace" [("root", .quoted root), ("members", .number found.length)])
  pure ⟨root, found.map (·.1), dependenciesOf found⟩
where
  /-- A step that writes no log entries. -/
  liftExcept {α : Type} (x : Except Failure α) : Attempt α := ExceptT.mk (pure x)

end ScriptRunner
