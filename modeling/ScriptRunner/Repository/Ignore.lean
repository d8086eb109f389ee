import ScriptRunner.Glob.Matching
import ScriptRunner.Repository.Basic
import ScriptRunner.Text.Lines
import ScriptRunner.Text.Utf8

/-!
# Ignored files

Files named `.gitignore` say which untracked files do not count.  Each of their lines is a rule; of the rules that match
a path the last one decides, rules of deeper directories coming after those above them.  What lies below an ignored
directory is ignored too.
-/

namespace ScriptRunner

/-- One line of an ignore file. -/
structure IgnoreRule where
  /-- The directory of the ignore file. -/
  base : List String
  /-- The rule takes paths back in. -/
  negated : Bool
  directoriesOnly : Bool
  /-- The pattern speaks of the whole path from `base`, not of the last name alone. -/
  anchored : Bool
  pattern : Glob

namespace IgnoreRule

/-- The name of the files that hold rules. -/
def fileName : String := ".gitignore"

/-- The ranges of a class in brackets and what follows it. -/
private def classRanges? (first : Bool) : List Char → Option (List (Char × Char) × List Char)
  | [] => none
  | '\\' :: c :: rest => (classRanges? false rest).map fun r => ((c, c) :: r.1, r.2)
  | c :: rest =>
    if c = ']' && !first then some ([], rest)
    else match rest with
      | '-' :: ']' :: rest' => some ([(c, c), ('-', '-')], rest')
      | '-' :: e :: rest' => (classRanges? false rest').map fun r => ((c, e) :: r.1, r.2)
      | rest => (classRanges? false rest).map fun r => ((c, c) :: r.1, r.2)

/-- The tokens of a pattern; `start` says that a name begins here. -/
private def tokens : Nat → (start : Bool) → List Char → List Glob.Token
  | 0, _, _ => []
  | _ + 1, _, [] => []
  | n + 1, true, '*' :: '*' :: '/' :: rest => .leadingDirs :: tokens n true rest
  | _ + 1, true, ['*', '*'] => [.star]
  | n + 1, _, '/' :: '*' :: '*' :: '/' :: rest => .innerDirs :: tokens n false rest
  | _ + 1, _, ['/', '*', '*'] => [.trailingDirs]
  | n + 1, _, '\\' :: c :: rest => .literal c :: tokens n false rest
  | n + 1, _, '?' :: rest => .any :: tokens n false rest
  | n + 1, start, '*' :: rest =>
    match rest with
    | '*' :: _ => tokens n start rest
    | _ => .star :: tokens n false rest
  | n + 1, _, '[' :: rest =>
    let (negated, inner) := match rest with
      | '!' :: r => (true, r)
      | '^' :: r => (true, r)
      | r => (false, r)
    match classRanges? true inner with
    | some (rs, after) => .choice negated rs :: tokens n false after
    | none => .literal '[' :: tokens n false rest
  | n + 1, _, c :: rest => .literal c :: tokens n false rest

/-- A line without the blanks at its end; a backslash keeps one. -/
private def trimmed (line : List Char) : List Char :=
  let blanks := line.reverse.takeWhile (· = ' ')
  let body := line.reverse.dropWhile (· = ' ')
  match blanks, body with
  | _ :: _, '\\' :: _ => body.reverse ++ [' ']
  | _, _ => body.reverse

/-- The rule of a line, if it is one. -/
def ofLine? (base : List String) (line : List Char) : Option IgnoreRule :=
  let line := trimmed (match line.reverse with
    | '\r' :: r => r.reverse
    | _ => line)
  match line with
  | [] => none
  | '#' :: _ => none
  | line =>
    let (negated, body) := match line with
      | '!' :: r => (true, r)
      | r => (false, r)
    let (directoriesOnly, body) := match body.reverse with
      | '/' :: r => (true, r.reverse)
      | _ => (false, body)
    let anchored := body.contains '/'
    let body := match body with
      | '/' :: r => r
      | r => r
    if body.isEmpty then none
    else some ⟨base, negated, directoriesOnly, anchored, ⟨tokens body.length true body, true⟩⟩

/-- The rules of an ignore file. -/
def ofText (base : List String) (text : String) : List IgnoreRule :=
  (Text.splitOn '\n' text.toList).filterMap (ofLine? base)

/-- The rule speaks of a path. -/
def speaksOf (rule : IgnoreRule) (path : List String) (isDir : Bool) : Bool :=
  rule.base.isPrefixOf path && (isDir || !rule.directoriesOnly) &&
    let rel := path.drop rule.base.length
    rule.pattern.matchesBytes (Text.encode (if rule.anchored then "/".intercalate rel else rel.getLastD ""))

/-- The last rule that speaks of a path ignores it. -/
def ignores (rules : List IgnoreRule) (path : List String) (isDir : Bool) : Bool :=
  match rules.reverse.find? fun rule => rule.speaksOf path isDir with
  | some rule => !rule.negated
  | none => false

end IgnoreRule

namespace Listing

open IgnoreRule in
/-- The files at `rel` that no rule ignores.  The rules of the directory itself come last. -/
def keptEntries (rules : List IgnoreRule) (rel : List String) : List (String × Node) → List (List String)
  | [] => []
  | (name, .dir entries) :: rest =>
    let path := rel ++ [name]
    let below :=
      if name = ".git" || ignores rules path true then []
      else keptEntries (rules ++ rulesIn path entries) path entries
    below ++ keptEntries rules rel rest
  | (_, .device _) :: rest => keptEntries rules rel rest
  | (name, _) :: rest =>
    (if ignores rules (rel ++ [name]) false then [] else [rel ++ [name]]) ++ keptEntries rules rel rest
where
  /-- The rules that a directory brings with it. -/
  rulesIn (path : List String) (entries : List (String × Node)) : List IgnoreRule :=
    match entries.lookup fileName with
    | some (.file data _) => ofText path (Text.decodeLossy data)
    | _ => []

/-- The files below a directory that are not ignored. -/
def kept (t : Node) (top : List String) : List (List String) :=
  match t.get? top with
  | some (.dir entries) => keptEntries (keptEntries.rulesIn [] entries) [] entries
  | _ => []

end Listing

end ScriptRunner
