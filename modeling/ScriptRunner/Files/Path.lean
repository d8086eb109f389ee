import ScriptRunner.Text.Lines

/-!
# Paths

A path is a text; what it denotes depends on its components alone: the names between its slashes, a slash of its own
for a path from the top, and a point only where it starts a relative path.  `isWithin` compares whole components, so
that `/a/bc` does not lie within `/a/b`.
-/

namespace ScriptRunner.Path

/-- The path starts at the top. -/
def isAbsolute (path : String) : Bool := path.toList.head? == some '/'

/-- The components of a path: `/` for the top, `.` only at the start. -/
def components (path : String) : List String :=
  let pieces := (Text.splitOn '/' path.toList).map String.ofList
  let names := pieces.filter fun p => p != "" && p != "."
  if isAbsolute path then "/" :: names
  else if pieces.head? = some "." then "." :: names
  else names

/-- The path is `dir` or lies below it. -/
def isWithin (dir path : String) : Bool := (components dir).isPrefixOf (components path)

/-- The number of components. -/
def depth (path : String) : Nat := (components path).length

/-- A path seen from a directory; an absolute path stays. -/
def join (dir path : String) : String :=
  if isAbsolute path || dir.isEmpty then path
  else if dir.toList.getLast? = some '/' then dir ++ path
  else dir ++ "/" ++ path

/-- The path of some components. -/
def ofComponents (names : List String) : String :=
  match names with
  | "/" :: rest => "/" ++ "/".intercalate rest
  | names => "/".intercalate names

/-- The last name of a path, if it ends in one. -/
def baseName? (path : String) : Option String :=
  match (components path).getLast? with
  | some name => if name = "/" || name = "." || name = ".." then none else some name
  | none => none

end ScriptRunner.Path
