import ScriptRunner.Shell.Arithmetic
import ScriptRunner.Shell.Pattern
import ScriptRunner.Shell.State

/-!
# Expansion of words

A word becomes pieces: characters, which remember whether they were quoted and whether they may separate fields.  The
pieces make fields, and a field with a pattern in it becomes the file names of that form, if there are any.
-/

namespace ScriptRunner.Shell

/-- A piece of an expanded word. -/
inductive Piece where
  | char (c : Char) (quoted splits : Bool)
  /-- A field ends here. -/
  | cut
  /-- Quotes were here: there is a field, perhaps an empty one. -/
  | quotes
  /-- An argument list without arguments was here: the quotes around it make no field. -/
  | absent
  deriving DecidableEq, Repr

namespace Piece

/-- The pieces of a text. -/
def ofText (quoted : Bool) (text : String) : List Piece := text.toList.map fun c => char c quoted !quoted

/-- The characters alone; fields are joined by blanks. -/
def chars (ps : List Piece) : List Pattern.Mark :=
  ps.filterMap fun p =>
    match p with
    | char c quoted _ => some (c, quoted)
    | cut => some (' ', true)
    | _ => none

def text (ps : List Piece) : String := String.ofList ((chars ps).map (·.1))

/-- A field that is being put together. -/
structure Field where
  marks : List Pattern.Mark := []
  quotes : Bool := false
  absent : Bool := false

namespace Field

/-- The field is one although it may be empty. -/
def isReal (f : Field) : Bool := !f.marks.isEmpty || (f.quotes && !f.absent)

end Field

/-- The fields of some pieces; `afterBlank` says that the last field was ended by a blank. -/
def fieldsFrom (separators : List Char) (current : Field) (afterBlank : Bool) : List Piece → List (List Pattern.Mark)
  | [] => if current.isReal then [current.marks.reverse] else []
  | p :: ps =>
    match p with
    | quotes => fieldsFrom separators { current with quotes := true } false ps
    | absent => fieldsFrom separators { current with absent := true } false ps
    | cut => current.marks.reverse :: fieldsFrom separators { quotes := current.quotes } false ps
    | char c quoted splits =>
      if splits && separators.contains c then
        let blank := c = ' ' || c = '\t' || c = '\n'
        if current.isReal then current.marks.reverse :: fieldsFrom separators {} blank ps
        else if blank then fieldsFrom separators {} afterBlank ps
        else if afterBlank then fieldsFrom separators {} false ps
        else [] :: fieldsFrom separators {} false ps
      else fieldsFrom separators { current with marks := (c, quoted) :: current.marks } false ps

end Piece

/-! ### File names -/

/-- The part of a text before the first slash, and the part behind it. -/
private def atSlash (marks : List Pattern.Mark) : List Pattern.Mark × Option (List Pattern.Mark) :=
  let first := marks.takeWhile (·.1 ≠ '/')
  (first, if first.length < marks.length then some (marks.drop (first.length + 1)) else none)

/-- The file names that begin with `start` and go on in the form of a pattern. -/
def fileNames (t : Tree) (cwd : List String) : Nat → String → List Pattern.Mark → List String
  | 0, _, _ => []
  | n + 1, start, marks =>
    let (first, rest) := atSlash marks
    let atoms := Pattern.ofMarks first
    let plain := String.ofList (first.map (·.1))
    let names :=
      if !Pattern.isProper atoms then [plain]
      else match t.resolve cwd (if start.isEmpty then "." else start) with
        | .ok (_, node) => ("." :: ".." :: node.names).filter fun name =>
            Pattern.matchesText atoms name.toList &&
              (name.toList.head? ≠ some '.' || plain.toList.head? = some '.')
        | .error _ => []
    match rest with
    | none => (names.map (start ++ ·)).filter fun path =>
        !Pattern.isProper atoms && path.toList.getLast? = some '/' ||
          match t.resolve cwd path false with | .ok _ => true | .error _ => false
    | some rest => names.flatMap fun name => fileNames t cwd n (start ++ name ++ "/") rest

/-- A field as the file names of its form, or as it is. -/
def spread (t : Tree) (cwd : List String) (marks : List Pattern.Mark) : List String :=
  let plain := String.ofList (marks.map (·.1))
  if !Pattern.isProper (Pattern.ofMarks marks) then [plain]
  else
    match fileNames t cwd (marks.length + 1) "" marks with
    | [] => [plain]
    | names => names

/-! ### Parameters -/

/-- What expansion needs from the shell around it. -/
structure Surroundings where
  /-- Runs a command in a process of its own. -/
  run : Command → Run Unit
  /-- Ends the shell. -/
  leave : Nat → Run Unit

/-- The value of a parameter other than a list of arguments. -/
def parameter? (s : State) (name : String) : Option String :=
  match name with
  | "?" => some (toString s.status)
  | "$" => some (toString s.process)
  | "!" => s.background.map toString
  | "#" => some (toString s.arguments.length)
  | "-" => some (String.ofList s.options)
  | "0" => some s.name
  | name =>
    if name.toList.all Char.isDigit then s.arguments[(name.toNat?.getD 0) - 1]?
    else s.value? name

/-- The text without a shortest or longest part at its start that has a form. -/
def withoutStart (longest : Bool) (atoms : List Pattern.Atom) (text : List Char) : List Char :=
  let lengths := (List.range (text.length + 1)).filter fun n => Pattern.matchesText atoms (text.take n)
  match if longest then lengths.getLast? else lengths.head? with
  | some n => text.drop n
  | none => text

/-- The text without a shortest or longest part at its end that has a form. -/
def withoutEnd (longest : Bool) (atoms : List Pattern.Atom) (text : List Char) : List Char :=
  let lengths := (List.range (text.length + 1)).filter fun n => Pattern.matchesText atoms (text.drop n)
  match if longest then lengths.head? else lengths.getLast? with
  | some n => text.take n
  | none => text

/-- The descriptors of a pipe that a shell reads from. -/
def readingEnd : Nat := 12

def writingEnd : Nat := 13

/-- What a command writes, without the ends of lines at its end. -/
def outputOf (around : Surroundings) (script : Command) : Run String := do
  Run.ask (.pipe readingEnd writingEnd)
  let child ← Run.fork (do
    let _ ← Run.ask (.copy writingEnd 1)
    Run.ask (.close readingEnd)
    Run.ask (.close writingEnd)
    around.run script)
  Run.ask (.close writingEnd)
  let data ← Run.lift (Act.readAll readingEnd 1000000 [])
  Run.ask (.close readingEnd)
  match ← Run.ask (.await (some child) false) with
  | .ended _ how => modify fun s => { s with inner := some how.status }
  | _ => pure ()
  let bytes := match data with | .ok bytes => bytes | .error _ => []
  let text := Text.decodeLossy (bytes.filter (· ≠ 0))
  pure (String.ofList (text.toList.reverse.dropWhile (· = '\n')).reverse)

/-- A message, and the end of the shell. -/
def fail {α : Type} [Inhabited α] (around : Surroundings) (message : String) : Run α := do
  Run.complain message
  around.leave 2
  pure default

/-- Sets a variable, which must not be fixed. -/
def assign (around : Surroundings) (name value : String) : Run Unit := do
  match (← get).set? name value with
  | some s => set s
  | none => fail around (name ++ ": is read only")

/-- The fields of the arguments. -/
def argumentPieces (quoted : Bool) (arguments : List String) : List Piece :=
  match arguments with
  | [] => [.absent]
  | a :: rest => Piece.ofText quoted a ++ rest.flatMap fun a => .cut :: Piece.ofText quoted a

def separatorsOf (s : State) : List Char := ((s.value? "IFS").getD " \t\n").toList

mutual

/-- The pieces of a segment. -/
def segmentPieces (around : Surroundings) : Nat → Segment → Run (List Piece)
  | 0, _ => pure []
  | n + 1, segment => do
    match segment with
    | .char c quoted => pure [.char c quoted false]
    | .quotes => pure [.quotes]
    | .output script quoted => return Piece.ofText quoted (← outputOf around script)
    | .arithmetic body quoted => do
      let text := Piece.text (← pieces around n body)
      let s ← get
      match Arithmetic.evaluate (fun name => (s.value? name).getD "") text.toList with
      | .error e => fail around (e.message text)
      | .ok (v, assigned) => do
        for (name, value) in assigned do
          assign around name value
        pure (Piece.ofText quoted (toString v))
    | .parameter name use quoted => do
      let s ← get
      if (name = "@" || name = "*") && use matches .value then
        if name = "*" && quoted then
          let comma := ((separatorsOf s).head?.map Char.toString).getD ""
          pure (Piece.ofText true (comma.intercalate s.arguments))
        else pure (argumentPieces quoted s.arguments)
      else
        let value := if name = "@" || name = "*" then some (" ".intercalate s.arguments) else parameter? s name
        let lacks (orEmpty : Bool) : Bool := value.isNone || (orEmpty && value = some "")
        let plain : Run (List Piece) := pure (Piece.ofText quoted (value.getD ""))
        match use with
        | .value =>
          if value.isNone && s.options.contains 'u' then fail around (name ++ ": parameter not set") else plain
        | .length => pure (Piece.ofText quoted (toString (value.getD "").utf8ByteSize))
        | .default orEmpty word => if lacks orEmpty then wordPieces around n quoted word else plain
        | .alternative orEmpty word => if lacks orEmpty then pure [] else wordPieces around n quoted word
        | .assign orEmpty word =>
          if lacks orEmpty then
            let text := Piece.text (← pieces around n word)
            assign around name text
            pure (Piece.ofText quoted text)
          else plain
        | .demand orEmpty word =>
          if lacks orEmpty then
            let text := Piece.text (← pieces around n word)
            fail around (name ++ ": " ++ (if text.isEmpty then "parameter not set" else text))
          else plain
        | .trimStart longest word => do
          let atoms := Pattern.ofMarks (Piece.chars (← pieces around n word))
          pure (Piece.ofText quoted (String.ofList (withoutStart longest atoms (value.getD "").toList)))
        | .malformed => fail around "Bad substitution"
        | .trimEnd longest word => do
          let atoms := Pattern.ofMarks (Piece.chars (← pieces around n word))
          pure (Piece.ofText quoted (String.ofList (withoutEnd longest atoms (value.getD "").toList)))

/-- The pieces of a word that stands in for a parameter; without quotes it may be split. -/
def wordPieces (around : Surroundings) : Nat → Bool → Word → Run (List Piece)
  | 0, _, _ => pure []
  | n + 1, quoted, word => do
    let ps ← pieces around n word
    pure (ps.map fun p => match p with
      | .char c q _ => .char c (q || quoted) !(q || quoted)
      | p => p)

/-- The pieces of a word. -/
def pieces (around : Surroundings) : Nat → Word → Run (List Piece)
  | 0, _ => pure []
  | _ + 1, [] => pure []
  | n + 1, s :: rest => do
    let first ← segmentPieces around n s
    return first ++ (← pieces around n rest)

end

/-- More steps than the expansion of any word takes. -/
def wordFuel : Nat := 1000000

/-- A tilde at the start of a word as the home directory. -/
def homePieces (s : State) (word : Word) : List Piece × Word :=
  match word, s.value? "HOME" with
  | [.char '~' false], some home => (Piece.ofText true home, [])
  | .char '~' false :: .char '/' false :: rest, some home => (Piece.ofText true home, .char '/' false :: rest)
  | word, _ => ([], word)

/-- The pieces of a whole word. -/
def allPieces (around : Surroundings) (word : Word) : Run (List Piece) := do
  let (home, rest) := homePieces (← get) word
  return home ++ (← pieces around wordFuel rest)

/-- A word as fields, with file names in the place of patterns. -/
def fieldsOf (around : Surroundings) (word : Word) : Run (List String) := do
  let ps ← allPieces around word
  let s ← get
  let fields := Piece.fieldsFrom (separatorsOf s) {} false ps
  let isOpen (p : Piece) : Bool := match p with
    | .char c false _ => ['*', '?', '['].contains c
    | _ => false
  if s.options.contains 'f' || !ps.any isOpen
  then pure (fields.map fun f => String.ofList (f.map (·.1)))
  else do
    let (tree, cwd) ← Run.ask .look
    pure (fields.flatMap (spread tree cwd))

/-- A word as one text. -/
def textOf (around : Surroundings) (word : Word) : Run String :=
  return Piece.text (← allPieces around word)

/-- A word as a pattern. -/
def patternOf (around : Surroundings) (word : Word) : Run (List Pattern.Atom) :=
  return Pattern.ofMarks (Piece.chars (← pieces around wordFuel word))

end ScriptRunner.Shell
