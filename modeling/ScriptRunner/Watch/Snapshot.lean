import ScriptRunner.Failure
import ScriptRunner.Files.Access
import ScriptRunner.Glob.Parser
import ScriptRunner.Glob.Set
import ScriptRunner.Watch.Digest
import ScriptRunner.Workspace.Member

/-!
# Snapshots

A snapshot has a stamp for every file below the members' directories, except what the excludes leave out.  A directory
that is itself a member's is left to that member.  With content digests, a file whose time and length have not changed
since the snapshot before keeps its digest.
-/

namespace ScriptRunner

/-- What is known of a file at one time. -/
structure Stamp where
  modified : Nat
  length : Nat
  digest : Option String := none
  deriving DecidableEq, Repr

namespace Stamp

def sameMetadata (a b : Stamp) : Bool := a.modified = b.modified && a.length = b.length

/-- The digests decide if there are two, else the metadata. -/
def sameContent (a b : Stamp) : Bool :=
  match a.digest, b.digest with
  | some x, some y => x = y
  | _, _ => a.sameMetadata b

end Stamp

/-- The stamps of files, by the components of their paths. -/
abbrev Snapshot := SortedMap (List String) Stamp

/-- What a scan leaves out, and whether it reads the files. -/
structure ScanOptions where
  exclude : List Glob
  useHash : Bool

namespace ScanOptions

def ofPatterns (exclude : List String) (useHash : Bool) : Except Failure ScanOptions := do
  let globs ← exclude.mapM fun p =>
    match Glob.parse p false with
    | .ok g => .ok g
    | .error e => .error (.other ["invalid watch exclude glob '" ++ p ++ "'", e.message])
  pure ⟨globs, useHash⟩

/-- A name that stands for any file of a directory. -/
def probe : String := ".wsrun-probe"

/-- Some exclude matches a path below a member. -/
def excludes (o : ScanOptions) (rel : List String) : Bool := Glob.anyMatches o.exclude ("/".intercalate rel)

/-- Some exclude matches a directory, or the files in it. -/
def excludesDir (o : ScanOptions) (rel : List String) : Bool := o.excludes rel || o.excludes (rel ++ [probe])

end ScanOptions

namespace Snapshot

/-- The digest of a file that has not changed since the snapshot before. -/
def reused? (previous : Option Snapshot) (path : List String) (stamp : Stamp) : Option String :=
  match previous.bind (·.get? path) with
  | some old => if old.sameMetadata stamp then old.digest else none
  | none => none

/-- The stamp of what is no directory. -/
def stampOf (o : ScanOptions) (previous : Option Snapshot) (path : List String) : Node → Stamp
  | .file data modified =>
    let stamp : Stamp := ⟨modified, data.length, none⟩
    if o.useHash then { stamp with digest := (reused? previous path stamp).or (some (Digest.hex data)) }
    else stamp
  | .link target modified => ⟨modified, target.utf8ByteSize, none⟩
  | _ => ⟨0, 0, none⟩

/-- What a scan looks at: its options, the members' directories, and the snapshot before. -/
structure Scan where
  options : ScanOptions
  places : List (List String)
  previous : Option Snapshot

mutual

/-- The stamps of a node at `rel` below a member's directory `place`. -/
def stampsOf (s : Scan) (place rel : List String) : Node → List (List String × Stamp)
  | .dir entries =>
    if s.places.contains (place ++ rel) || s.options.excludesDir rel then []
    else stampsIn s place rel entries
  | n => if s.options.excludes rel then [] else [(place ++ rel, stampOf s.options s.previous (place ++ rel) n)]

/-- The stamps of the entries of a directory at `rel`. -/
def stampsIn (s : Scan) (place rel : List String) : List (String × Node) → List (List String × Stamp)
  | [] => []
  | e :: es => stampsOf s place (rel ++ [e.1]) e.2 ++ stampsIn s place rel es

end

/-- The stamps that one member contributes. -/
def ofMember (t : Tree) (s : Scan) (m : Member) : Logged (List (List String × Stamp)) :=
  let unreadable (e : FileFault) : Logged (List (List String × Stamp)) := do
    Logged.note .debug "skipping unreadable directory" [("dir", .quoted m.dir), ("error", .plain e.message)]
    pure []
  match t.resolve [] m.dir with
  | .error e => unreadable e
  | .ok (_, .dir entries) => pure (stampsIn s m.place [] entries)
  | .ok _ => unreadable .notDirectory

/-- The stamps of all members' files. -/
def take (t : Tree) (members : List Member) (options : ScanOptions) (previous : Option Snapshot) :
    Logged Snapshot := do
  let stamps ← members.mapM (ofMember t ⟨options, members.map Member.place, previous⟩)
  let snapshot : Snapshot := SortedMap.ofList stamps.flatten
  Logged.note .trace "scan complete" [("files", .number snapshot.size)]
  pure snapshot

end Snapshot

end ScriptRunner
