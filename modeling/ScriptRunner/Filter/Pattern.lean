import ScriptRunner.Text.Blank
import ScriptRunner.Text.Lines

/-!
# Name patterns

A pattern without a star stands for one name.  With a star it stands for the names that start with what is before the
first star and end with what is after it; the two parts may overlap in the name.  A pattern list selects a name that
some plain pattern matches and no negated one (`!` in front) does; the empty list selects every name
(`selects_eq_true_iff`).
-/

namespace ScriptRunner

namespace Pattern

/-- The parts of a text before and after the first star. -/
def cutAtStar? : List Char → Option (List Char × List Char)
  | [] => none
  | c :: r => if c = '*' then some ([], r) else (cutAtStar? r).map fun p => (c :: p.1, p.2)

/-- A pattern without a sign in front matches a name. -/
def matchesChars (pattern name : List Char) : Bool :=
  match cutAtStar? pattern with
  | some (front, back) => front.isPrefixOf name && back.isSuffixOf name
  | none => pattern == name

/-- `matchesChars` on strings. -/
def nameMatches (pattern name : String) : Bool := matchesChars pattern.toList name.toList

/-- What a negated pattern excludes. -/
def negated? (pattern : String) : Option String :=
  match pattern.toList with
  | '!' :: r => some (String.ofList r)
  | _ => none

/-- Some negated pattern of the list matches the name. -/
def excludes (patterns : List String) (name : String) : Bool :=
  (patterns.filterMap negated?).any fun p => nameMatches p name

/-- Some plain pattern of the list matches the name. -/
def includes (patterns : List String) (name : String) : Bool :=
  (patterns.filter fun p => (negated? p).isNone).any fun p => nameMatches p name

/-- The list selects the name. -/
def selects (patterns : List String) (name : String) : Bool :=
  patterns.isEmpty || (!excludes patterns name && includes patterns name)

/-- The entries of a list written with commas, characters in and out: trimmed, and blank ones left out. -/
def entriesOf (text : List Char) : List (List Char) :=
  ((Text.splitOn ',' text).map Text.trim).filter fun p => !p.isEmpty

/-- The patterns of a list written with commas. -/
def parseList (text : String) : List String := (entriesOf text.toList).map String.ofList

theorem selects_eq_true_iff {patterns : List String} {name : String} :
    selects patterns name = true ↔
      patterns = [] ∨ (excludes patterns name = false ∧ includes patterns name = true) := by
  simp [selects]

end Pattern

end ScriptRunner
