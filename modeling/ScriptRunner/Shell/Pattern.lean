import ScriptRunner.Text.Utf8

/-!
# Shell patterns

Patterns of file names and of texts: `*`, `?` and bracket expressions.  A quoted character stands for itself.  A
pattern looks at bytes: a character that takes several of them counts as so many.
-/

namespace ScriptRunner.Shell

namespace Pattern

/-- A character, and whether it was quoted. -/
abbrev Mark := Char × Bool

inductive Atom where
  | literal (c : Char)
  | any
  | many
  /-- One of some ranges, or, negated, none of them. -/
  | set (negated : Bool) (ranges : List (Char × Char))
  deriving DecidableEq, Repr

/-- The ranges of a bracket expression, up to its closing bracket. -/
def ranges? (first : Bool) : List Mark → Option (List (Char × Char) × List Mark)
  | [] => none
  | [(']', false)] => if first then none else some ([], [])
  | (a, qa) :: ('-', false) :: (b, qb) :: rest =>
    if a = ']' && !qa && !first then some ([], ('-', false) :: (b, qb) :: rest)
    else if b = ']' && !qb then
      (ranges? false (('-', true) :: (b, qb) :: rest)).map fun r => ((a, a) :: r.1, r.2)
    else (ranges? false rest).map fun r => ((a, b) :: r.1, r.2)
  | (a, qa) :: rest =>
    if a = ']' && !qa && !first then some ([], rest)
    else (ranges? false rest).map fun r => ((a, a) :: r.1, r.2)
termination_by marks => marks.length

/-- The atoms of a pattern. -/
def atoms : Nat → List Mark → List Atom
  | 0, _ => []
  | _, [] => []
  | n + 1, ('*', false) :: rest => .many :: atoms n rest
  | n + 1, ('?', false) :: rest => .any :: atoms n rest
  | n + 1, ('[', false) :: rest =>
    let (negated, inner) := match rest with
      | ('!', false) :: r => (true, r)
      | ('^', false) :: r => (true, r)
      | r => (false, r)
    match ranges? true inner with
    | some (rs, after) => .set negated rs :: atoms n after
    | none => .literal '[' :: atoms n rest
  | n + 1, (c, _) :: rest => .literal c :: atoms n rest

/-- The bytes of a character, each as a character of its own. -/
def unitsOf (c : Char) : List Char :=
  if c.toNat < 128 then [c] else (Text.encode c.toString).map fun b => Char.ofNat b.toNat

def ofMarks (marks : List Mark) : List Atom :=
  let units := marks.flatMap fun m => (unitsOf m.1).map fun u => (u, m.2)
  atoms units.length units

def inRanges (rs : List (Char × Char)) (c : Char) : Bool := rs.any fun r => r.1 ≤ c && c ≤ r.2

/-- Some bytes are of the form of some atoms. -/
def matchesUnits : List Atom → List Char → Bool
  | [], s => s.isEmpty
  | .many :: as, [] => matchesUnits as []
  | .many :: as, c :: s => matchesUnits as (c :: s) || matchesUnits (.many :: as) s
  | .literal l :: as, c :: s => l = c && matchesUnits as s
  | .any :: as, _ :: s => matchesUnits as s
  | .set negated rs :: as, c :: s => (inRanges rs c != negated) && matchesUnits as s
  | _ :: _, [] => false
termination_by as s => (s.length, as.length)

/-- A text is of the form of some atoms. -/
def matchesText (as : List Atom) (s : List Char) : Bool := matchesUnits as (s.flatMap unitsOf)

/-- Some atom stands for more than one text. -/
def isProper (as : List Atom) : Bool := as.any fun a => match a with | .literal _ => false | _ => true

end Pattern

end ScriptRunner.Shell
