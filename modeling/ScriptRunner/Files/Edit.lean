import ScriptRunner.Files.Access

/-!
# Edits of a file tree

Single changes to the files of a tree, as somebody makes them from outside.  An edit that cannot be made leaves the
tree as it is.
-/

namespace ScriptRunner

/-- A change to the files below a directory. -/
inductive Edit where
  /-- Writes a file, and the directories that it needs. -/
  | write (path : String) (data : List UInt8) (modified : Nat)
  | touch (path : String) (modified : Nat)
  /-- Removes a file, a link, or a directory with everything in it. -/
  | remove (path : String)
  | makeDir (path : String)
  | rename (path target : String)
  | link (path target : String) (modified : Nat)
  deriving Repr

namespace Edit

/-- The directory part of a path. -/
def parentPath (path : String) : String := Path.ofComponents (Path.components path).dropLast

private def withParents (t : Tree) (cwd : List String) (path : String) : Except FileFault Tree :=
  t.makeDirs cwd (parentPath path)

/-- The tree after an edit, with paths that start at `cwd`. -/
def applied? (e : Edit) (cwd : List String) (t : Tree) : Except FileFault Tree :=
  match e with
  | write path data modified => do (← withParents t cwd path).write cwd path data modified
  | touch path modified => t.touch cwd path modified
  | remove path => t.remove cwd path
  | makeDir path => t.makeDirs cwd path
  | rename path target => t.rename cwd path target
  | link path target modified => do (← withParents t cwd path).makeLink cwd path target modified

def apply (cwd : List String) (t : Tree) (e : Edit) : Tree :=
  match e.applied? cwd t with
  | .ok t => t
  | .error _ => t

/-- The tree after some edits. -/
def applyAll (cwd : List String) (t : Tree) (es : List Edit) : Tree := es.foldl (apply cwd) t

end Edit

end ScriptRunner
