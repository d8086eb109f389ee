import ScriptRunner.Files.Path
import ScriptRunner.Files.Tree
import ScriptRunner.Text.Utf8

/-!
# Access to files

Paths are resolved from a directory of the tree, through at most `maxLinks` symbolic links.  Every operation says what
is wrong with a path that it cannot use.
-/

namespace ScriptRunner

/-- Why a file cannot be used. -/
inductive FileFault where
  | notFound
  | notDirectory
  | isDirectory
  | exists
  | notEmpty
  | denied
  | tooManyLinks
  | nameTooLong
  /-- A path with a NUL in it. -/
  | nulByte
  | invalid
  /-- Nothing is open there. -/
  | badDescriptor
  /-- Nobody is left to read. -/
  | brokenPipe
  deriving DecidableEq, Repr

namespace FileFault

/-- The words of the system for a fault. -/
def reason : FileFault → String
  | notFound => "No such file or directory"
  | notDirectory => "Not a directory"
  | isDirectory => "Is a directory"
  | .exists => "File exists"
  | notEmpty => "Directory not empty"
  | denied => "Permission denied"
  | tooManyLinks => "Too many levels of symbolic links"
  | nameTooLong => "File name too long"
  | nulByte => "file name contained an unexpected NUL byte"
  | invalid => "Invalid argument"
  | badDescriptor => "Bad file descriptor"
  | brokenPipe => "Broken pipe"

/-- The number of the system for a fault. -/
def number : FileFault → Nat
  | notFound => 2
  | notDirectory => 20
  | isDirectory => 21
  | .exists => 17
  | notEmpty => 39
  | denied => 13
  | tooManyLinks => 40
  | nameTooLong => 36
  | nulByte => 0
  | invalid => 22
  | badDescriptor => 9
  | brokenPipe => 32

def message (f : FileFault) : String :=
  match f with
  | nulByte => f.reason
  | f => s!"{f.reason} (os error {f.number})"

end FileFault

/-- A file tree, seen from its top. -/
abbrev Tree := Node

namespace Tree

/-- How many links may be followed on one path. -/
def maxLinks : Nat := 40

/-- How many bytes a name may have. -/
def maxName : Nat := 255

/-- The names that a link adds to a path, and whether they start at the top. -/
def linkNames (target : String) : Bool × List String :=
  (Path.isAbsolute target, (Path.components target).filter fun c => c != "/" && c != ".")

/-- Follows names from a directory, which is given by its own names, up to a link, from which `enter` goes on.  A link at
the very end is followed if `follow` says so. -/
def descend (t : Tree) (follow : Bool) (enter : List String → List String → Except FileFault (List String × Node))
    (here : List String) : List String → Except FileFault (List String × Node)
  | [] =>
    match t.get? here with
    | some n => .ok (here, n)
    | none => .error .notFound
  | name :: rest =>
    match t.get? here with
    | none => .error .notFound
    | some (.dir entries) =>
      if name = ".." then descend t follow enter here.dropLast rest
      else if maxName < name.utf8ByteSize then .error .nameTooLong
      else match Node.child? entries name with
        | none => .error .notFound
        | some (.link target modified) =>
          if rest.isEmpty && !follow then .ok (here ++ [name], .link target modified)
          else
            let (top, names) := linkNames target
            enter (if top then [] else here) (names ++ rest)
        | some _ => descend t follow enter (here ++ [name]) rest
    | some _ => .error .notDirectory

/-- Follows names from a directory, through so many links at most. -/
def walk (t : Tree) (follow : Bool) : (links : Nat) → (here names : List String) →
    Except FileFault (List String × Node)
  | 0 => descend t follow fun _ _ => .error .tooManyLinks
  | links + 1 => descend t follow (walk t follow links)

/-- The path can only be a directory. -/
def namesDirectory (path : String) : Bool :=
  match path.toList.reverse with
  | '/' :: _ => true
  | '.' :: '/' :: _ => true
  | ['.'] => true
  | '.' :: '.' :: '/' :: _ => true
  | ['.', '.'] => true
  | _ => false

/-- Where a path leads from a directory. -/
def resolve (t : Tree) (cwd : List String) (path : String) (follow : Bool := true) :
    Except FileFault (List String × Node) :=
  if path.isEmpty then .error .notFound
  else if path.toList.contains '\x00' then .error .nulByte
  else if 4095 < path.utf8ByteSize then .error .nameTooLong
  else
    let (top, names) := linkNames path
    let needsDir := namesDirectory path
    match walk t (follow || needsDir) maxLinks (if top then [] else cwd) names with
    | .error e => .error e
    | .ok (at_, n) => if needsDir && !n.isDir then .error .notDirectory else .ok (at_, n)

/-- The path leads to a regular file. -/
def hasFile (t : Tree) (path : String) (cwd : List String := []) : Bool :=
  match t.resolve cwd path with
  | .ok (_, n) => n.isFile
  | .error _ => false

/-- The path leads to a directory. -/
def hasDir (t : Tree) (path : String) : Bool :=
  match t.resolve [] path with
  | .ok (_, n) => n.isDir
  | .error _ => false

/-- The bytes of a file. -/
def read (t : Tree) (cwd : List String) (path : String) : Except FileFault (List UInt8) :=
  match t.resolve cwd path with
  | .error e => .error e
  | .ok (_, .file data _) => .ok data
  | .ok (_, .dir _) => .error .isDirectory
  | .ok _ => .ok []

/-- The text of a file, or the message why there is none. -/
def readText (t : Tree) (path : String) (cwd : List String := []) : Except String String :=
  match t.read cwd path with
  | .error e => .error e.message
  | .ok data =>
    match Text.decode? data with
    | some text => .ok text
    | none => .error "stream did not contain valid UTF-8"

/-- The path without links that leads to the same place. -/
def canonical (t : Tree) (cwd : List String) (path : String) : Except FileFault String :=
  match t.resolve cwd path with
  | .error e => .error e
  | .ok (names, _) => .ok (Path.ofComponents ("/" :: names))

/-! ### Changing a tree -/

/-- Where something new may stand: the directory's names and the new name. -/
def parentOf (t : Tree) (cwd : List String) (path : String) : Except FileFault (List String × String) :=
  if path.toList.contains '\x00' then .error .nulByte
  else
    let (top, names) := linkNames path
    match names.getLast? with
    | none => .error .exists
    | some name =>
      if name = ".." then .error .exists
      else match walk t true maxLinks (if top then [] else cwd) names.dropLast with
        | .error e => .error e
        | .ok (dir, .dir _) => if maxName < name.utf8ByteSize then .error .nameTooLong else .ok (dir, name)
        | .ok _ => .error .notDirectory

/-- Where a file may be written: the names of the file that is there, or of a new one.  A link without target leads
to where its target would be. -/
def placeOf (t : Tree) (links : Nat) (cwd : List String) (path : String) : Except FileFault (List String) :=
  match t.resolve cwd path with
  | .ok (names, .file _ _) => .ok names
  | .ok (names, .device _) => .ok names
  | .ok _ => .error .isDirectory
  | .error .notFound =>
    if path.isEmpty then .error .notFound
    else if path.toList.getLast? = some '/' then .error .isDirectory
    else match t.parentOf cwd path with
      | .error e => .error e
      | .ok (dir, name) =>
        match t.get? (dir ++ [name]), links with
        | some (.link target _), links + 1 => placeOf t links dir target
        | some (.link _ _), 0 => .error .tooManyLinks
        | _, _ => .ok (dir ++ [name])
  | .error e => .error e

/-- The tree with a file written. -/
def write (t : Tree) (cwd : List String) (path : String) (data : List UInt8) (modified : Nat) :
    Except FileFault Tree := do
  let names ← t.placeOf maxLinks cwd path
  match t.get? names with
  | some (.device _) => pure t
  | _ => match t.put? (some (.file data modified)) names with
    | some t => pure t
    | none => throw .notFound

/-- The tree with one more directory. -/
def makeDir (t : Tree) (cwd : List String) (path : String) : Except FileFault Tree := do
  let (dir, name) ← t.parentOf cwd path
  match t.get? (dir ++ [name]) with
  | some _ => throw .exists
  | none => match t.put? (some (.dir [])) (dir ++ [name]) with
    | some t => pure t
    | none => throw .notFound

/-- The tree with the directories of a path, as far as they are missing. -/
def makeDirs (t : Tree) (cwd : List String) (path : String) : Except FileFault Tree :=
  let (top, names) := linkNames path
  let start := if top then "/" else ""
  let paths := (List.range names.length).map fun i => start ++ "/".intercalate (names.take (i + 1))
  paths.foldlM (fun t p =>
    match t.resolve cwd p with
    | .ok (_, .dir _) => .ok t
    | .ok _ => .error .exists
    | .error _ => t.makeDir cwd p) t

/-- The tree without what a path leads to; a link itself goes, not its target. -/
def remove (t : Tree) (cwd : List String) (path : String) : Except FileFault Tree := do
  let (names, _) ← t.resolve cwd path false
  match names with
  | [] => throw .denied
  | names => match t.put? none names with
    | some t => pure t
    | none => throw .notFound

/-- The tree with something moved to another path. -/
def rename (t : Tree) (cwd : List String) (source target : String) : Except FileFault Tree := do
  let (names, n) ← t.resolve cwd source false
  let (dir, name) ← t.parentOf cwd target
  let place := dir ++ [name]
  if names.isEmpty then throw .denied
  if place = names then pure t
  else if names.isPrefixOf place then throw .invalid
  else
    match t.get? place, n with
    | some (.dir es), .dir _ => if es.isEmpty then pure () else throw .notEmpty
    | some (.dir _), _ => throw .isDirectory
    | some _, .dir _ => throw .notDirectory
    | _, _ => pure ()
    match (t.put? none names).bind (·.put? (some n) place) with
    | some t => pure t
    | none => throw .notFound

/-- The tree with a symbolic link. -/
def makeLink (t : Tree) (cwd : List String) (path target : String) (modified : Nat) : Except FileFault Tree := do
  let (dir, name) ← t.parentOf cwd path
  match t.get? (dir ++ [name]) with
  | some _ => throw .exists
  | none => match t.put? (some (.link target modified)) (dir ++ [name]) with
    | some t => pure t
    | none => throw .notFound

/-- The tree with another time on a file. -/
def touch (t : Tree) (cwd : List String) (path : String) (modified : Nat) : Except FileFault Tree := do
  match ← t.resolve cwd path with
  | (names, .file data _) => match t.put? (some (.file data modified)) names with
    | some t => pure t
    | none => throw .notFound
  | _ => pure t

end Tree

end ScriptRunner
