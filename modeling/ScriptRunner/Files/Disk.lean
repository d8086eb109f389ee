import ScriptRunner.Files.Edit

/-!
# A disk

The file tree that a run starts from: one directory to work in, and the few files of the system that scripts expect.
-/

namespace ScriptRunner.Disk

/-- The name of the directory to work in. -/
def homeName : String := "$ROOT"

/-- The directory to work in. -/
def home : List String := [homeName]

/-- The path of the directory to work in. -/
def homePath : String := "/" ++ homeName

/-- The time on files that nobody has set another time on. -/
def defaultTime : Nat := 1000000000 * 1000000000

/-- The time at which a run starts. -/
def startTime : Nat := 1700000000 * 1000000000

/-- The environment that a run starts in. -/
def environment : List (String × String) := [("HOME", homePath), ("PATH", "/usr/local/bin:/usr/bin:/bin")]

/-- A tree with an empty directory to work in. -/
def fresh : Tree :=
  .dir [(homeName, .dir []), ("bin", .dir []),
    ("dev", .dir [("null", .device "null"), ("zero", .device "zero")]), ("tmp", .dir [])]

/-- The tree with directories, then files, then links below the directory to work in. -/
def furnished (dirs : List String) (files : List (String × List UInt8)) (links : List (String × String)) : Tree :=
  let edits := dirs.map Edit.makeDir ++ files.map (fun f => Edit.write f.1 f.2 defaultTime) ++
    links.map fun l => Edit.link l.1 l.2 defaultTime
  Edit.applyAll home fresh edits

end ScriptRunner.Disk
