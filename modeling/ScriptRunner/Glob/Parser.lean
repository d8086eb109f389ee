import ScriptRunner.Glob.Basic

/-!
# Reading globs

`Glob.parse` reads a glob from left to right.  Its state is the branch being read, the groups of braces that are open
around it, and the last character read, on which the meaning of `**` depends.  Every unit of the text (a character, a
class, a pair of stars with its slash) takes at least one character, so the reading ends.
-/

namespace ScriptRunner.Glob

/-- A group of braces that is still open: what stood before it and the branches that are finished, each in
reverse. -/
structure Group where
  before : List Token
  finished : List (List Token)

/-- The state of the reader.  The current branch is in reverse. -/
structure Reader where
  groups : List Group
  branch : List Token
  previous : Option Char

def Reader.push (r : Reader) (t : Token) : Reader := { r with branch := t :: r.branch }

/-- Extends the last range of a class to `c`. -/
def extendRange (c : Char) : List (Char × Char) → Except Fault (List (Char × Char))
  | [] => .ok [(c, c)]
  | (first, _) :: rest => if c < first then .error (.invalidRange first c) else .ok ((first, c) :: rest)

/-- The ranges of a class up to its bracket, and the text after it.  `first` holds before the first member,
`inRange` after a dash that may join two members; ranges are in reverse. -/
def classBody (first inRange : Bool) (ranges : List (Char × Char)) :
    List Char → Except Fault (List (Char × Char) × List Char)
  | [] => .error .unclosedClass
  | c :: rest =>
    if c = ']' && !first then .ok ((if inRange then ('-', '-') :: ranges else ranges).reverse, rest)
    else if c = '-' && !first && !inRange then classBody false true ranges rest
    else if inRange then do
      let ranges ← extendRange c ranges
      classBody false false ranges rest
    else classBody false false ((c, c) :: ranges) rest

theorem classBody_length {first inRange : Bool} {ranges : List (Char × Char)} {s : List Char}
    {out : List (Char × Char) × List Char} (h : classBody first inRange ranges s = .ok out) :
    out.2.length < s.length := by
  induction s generalizing first inRange ranges with
  | nil => simp [classBody] at h
  | cons c r ih =>
    unfold classBody at h
    split at h
    · cases h; simp
    · split at h
      · exact Nat.lt_succ_of_lt (ih h)
      · split at h
        · cases he : extendRange c ranges with
          | error e => rw [he] at h; cases h
          | ok rs => rw [he] at h; exact Nat.lt_succ_of_lt (ih h)
        · exact Nat.lt_succ_of_lt (ih h)

/-- Two stars that do not make up a whole path segment count as one. -/
def Reader.pushStars (r : Reader) : Reader := (r.push .star).push .star

/-- Puts a directory token in the place of the slash before it; one directory token absorbs the next. -/
def Reader.pushDirs (r : Reader) (t : Token) : Reader :=
  match r.branch with
  | .leadingDirs :: _ => r
  | .trailingDirs :: _ => r
  | _ :: rest => { r with branch := t :: rest }
  | [] => r.push t

/-- Reads two stars; `rest` is the text after them, `previous` the character before them.  Gives the state and
the text that is left, which is `rest` or `rest` without a slash. -/
def Reader.stars (r : Reader) (rest : List Char) : Reader × List Char :=
  if r.branch.isEmpty then
    match rest with
    | [] => (r.push .leadingDirs, [])
    | '/' :: more => ({ r.push .leadingDirs with previous := some '/' }, more)
    | _ => ({ r.pushStars with previous := some '*' }, rest)
  else if r.previous = some '/' || (!r.groups.isEmpty && (r.previous = some ',' || r.previous = some '\x7b')) then
    match rest with
    | [] => (r.pushDirs .trailingDirs, [])
    | '/' :: more => ({ r.pushDirs .innerDirs with previous := some '/' }, more)
    | c :: _ =>
      if !r.groups.isEmpty && (c = ',' || c = '\x7d') then
        ({ r.pushDirs .trailingDirs with previous := some '*' }, rest)
      else ({ r.pushStars with previous := some '*' }, rest)
  else ({ r.pushStars with previous := some '*' }, rest)

theorem Reader.stars_length (r : Reader) (rest : List Char) :
    (r.stars rest).2.length ≤ rest.length := by
  unfold Reader.stars
  split
  · split <;> simp
  · split
    · split
      · simp
      · simp
      · split <;> simp
    · simp

/-- Closes the innermost group. -/
def Reader.close (r : Reader) : Except Fault Reader :=
  match r.groups with
  | [] => .error .unopenedAlternatives
  | g :: outer =>
    let branches := (r.branch.reverse :: g.finished).reverse
    .ok { r with groups := outer, branch := .alternatives branches :: g.before }

/-- Starts the next branch of the innermost group; outside of groups a comma is a comma. -/
def Reader.comma (r : Reader) : Reader :=
  match r.groups with
  | [] => r.push (.literal ',')
  | g :: outer => { r with groups := { g with finished := r.branch.reverse :: g.finished } :: outer, branch := [] }

def Reader.read (r : Reader) : List Char → Except Fault (List Token)
  | [] => if r.groups.isEmpty then .ok r.branch.reverse else .error .unclosedAlternatives
  | '?' :: rest => ({ r.push .any with previous := some '?' }).read rest
  | '*' :: '*' :: rest =>
    have := r.stars_length rest
    (r.stars rest).1.read (r.stars rest).2
  | '*' :: rest => ({ r.push .star with previous := some '*' }).read rest
  | '[' :: rest =>
    let negated := rest.head? = some '!' || rest.head? = some '^'
    let body := if negated then rest.drop 1 else rest
    have hb : body.length ≤ rest.length := by
      simp only [body]; split <;> simp
    match h : classBody true false [] body with
    | .error e => .error e
    | .ok (ranges, more) =>
      have := classBody_length h
      ({ r.push (.choice negated ranges) with previous := some ']' }).read more
  | '\x7b' :: rest =>
    ({ groups := ⟨r.branch, []⟩ :: r.groups, branch := [], previous := some '\x7b' } : Reader).read rest
  | '\x7d' :: rest =>
    match r.close with
    | .error e => .error e
    | .ok r => ({ r with previous := some '\x7d' }).read rest
  | ',' :: rest => ({ r.comma with previous := some ',' }).read rest
  | '\\' :: [] => .error .danglingEscape
  | '\\' :: c :: rest => ({ r.push (.literal c) with previous := some c }).read rest
  | c :: rest => ({ r.push (.literal c) with previous := some c }).read rest
termination_by s => s.length
decreasing_by all_goals simp_all <;> omega

/-- Reads a glob. -/
def parse (text : String) (withinSegment : Bool) : Except Error Glob :=
  match Reader.read ⟨[], [], none⟩ text.toList with
  | .ok tokens => .ok ⟨tokens, withinSegment⟩
  | .error fault => .error ⟨text, fault⟩

end ScriptRunner.Glob
