import ScriptRunner.Shell.Syntax

/-!
# Reading scripts

A script is read line by line: `nextLine` reads one complete command list, up to the end of a line, and leaves the rest
of the script for later.  A fault in a later line is met only after the lines before it have run.
-/

namespace ScriptRunner.Shell

/-- What is left of a script. -/
structure Source where
  rest : List Char
  line : Nat := 1
  /-- How many lines below the present one are read already. -/
  below : Nat := 0

/-- What is wrong with a script, and in which line. -/
structure Malformed where
  line : Nat
  message : String

/-- Reading a script. -/
abbrev Reading := StateT Source (Except Malformed)

namespace Reading

def isBlank (c : Char) : Bool := c = ' ' || c = '\t'

/-- The characters that end a word. -/
def endsWord (c : Char) : Bool := isBlank c || ['\n', ';', '&', '|', '<', '>', '(', ')'].contains c

def rest : Reading (List Char) := do return (← get).rest

/-- Goes on to a later place of the script. -/
def skip (n : Nat) : Reading Unit := modify fun s =>
  let lines := (s.rest.take n).count '\n'
  if lines = 0 then { s with rest := s.rest.drop n }
  else { rest := s.rest.drop n, line := s.line + lines + s.below }

def startsWith (text : String) : Reading Bool := do return text.toList.isPrefixOf (← rest)

/-- Passes over a text if it comes next. -/
def accept (text : String) : Reading Bool := do
  if ← startsWith text then skip text.length; pure true else pure false

/-- How many characters at the front are blanks, joined lines and comments. -/
def blankLength (fresh : Bool) : Nat → List Char → Nat
  | 0, _ => 0
  | n + 1, s =>
    match s with
    | '\\' :: '\n' :: r => 2 + blankLength fresh n r
    | '#' :: r => if fresh then 1 + (r.takeWhile (· ≠ '\n')).length else 0
    | c :: r => if isBlank c then 1 + blankLength true n r else 0
    | [] => 0

def blanks : Reading Unit := do
  let s ← rest
  skip (blankLength true s.length s)

/-- Passes over blanks and ends of lines. -/
def newlines : Nat → Reading Unit
  | 0 => pure ()
  | n + 1 => do
    blanks
    if ← accept "\n" then newlines n

/-- The plain characters at the front, if nothing else belongs to their word. -/
def bareWord : Reading String := do
  let s ← rest
  let word := s.takeWhile fun c => !endsWord c && !(['\'', '"', '\\', '$', '\x60'].contains c)
  match s.drop word.length with
  | [] => pure (String.ofList word)
  | c :: _ => pure (if endsWord c then String.ofList word else "")

/-- The words that end a list of commands. -/
def closers : List String := ["then", "else", "elif", "fi", "do", "done", "esac", "\x7d"]

/-- The words that only stand at the start of a command. -/
def isReserved (word : String) : Bool :=
  closers.contains word || ["if", "while", "until", "for", "case", "\x7b", "!"].contains word

/-- What comes next, as faults name it. -/
def nextToken : Reading String := do
  blanks
  match ← rest with
  | [] => pure "end of file"
  | '\n' :: _ => pure "newline"
  | c :: r =>
    let two := String.ofList (c :: r.take 1)
    let word ← bareWord
    pure (if [";;", "&&", "||"].contains two then "\"" ++ two ++ "\""
      else if [';', '&', '|', '(', ')'].contains c then "\"" ++ c.toString ++ "\""
      else if c = '<' || c = '>' then "redirection"
      else if isReserved word then "\"" ++ word ++ "\"" else "word")

/-- Something is wrong at the present place. -/
def malformed {α : Type} (what : String) : Reading α := do
  throw ⟨(← get).line, "Syntax error: " ++ what⟩

/-- A token stands where it must not; the end of a line counts as read. -/
def misplaced {α : Type} (token : String) (wanted : String := "") : Reading α := do
  if token = "newline" then skip 1
  malformed (token ++ " unexpected" ++ if wanted.isEmpty then "" else " (expecting " ++ wanted ++ ")")

def unexpected {α : Type} : Reading α := do misplaced (← nextToken)

def expecting {α : Type} (wanted : String) : Reading α := do
  misplaced (← nextToken) ("\"" ++ wanted ++ "\"")

def tooDeep {α : Type} : Reading α := malformed "too deep"

/-- Passes over all that is left. -/
def skipAll : Reading Unit := do skip (← rest).length

/-- A word that must come next. -/
def keyword (word : String) : Reading Unit := do
  blanks
  if (← bareWord) = word then skip word.length else expecting word

/-- An operator that must come next. -/
def operator (text : String) : Reading Unit := do
  blanks
  if ← accept text then pure () else expecting text

/-- What surrounds the segments that are read. -/
inductive Enclosure where
  | word
  | doubleQuotes
  /-- Inside of braces, which may stand between double quotes. -/
  | braces (quoted : Bool)
  /-- Between double parentheses, so many parentheses deep. -/
  | parentheses (depth : Nat)
  /-- The whole text. -/
  | document
  deriving DecidableEq

namespace Enclosure

def quotes : Enclosure → Bool
  | word => false
  | doubleQuotes => true
  | braces quoted => quoted
  | parentheses _ => true
  | document => true

/-- What is said when the text is over inside of it. -/
def complaint : Enclosure → String
  | braces false => "Missing '\x7d'"
  | parentheses _ => "Missing '))'"
  | _ => "Unterminated quoted string"

/-- The segments are over before these characters. -/
def ends (e : Enclosure) (s : List Char) : Bool :=
  match e, s with
  | word, c :: _ => endsWord c
  | doubleQuotes, '"' :: _ => true
  | braces _, '\x7d' :: _ => true
  | parentheses 0, ')' :: ')' :: _ => true
  | _, _ => false

/-- The characters that a backslash takes their meaning from, where not all of them are. -/
def escapes (e : Enclosure) (c : Char) : Bool :=
  ['$', '\x60', '\\', '\n'].contains c ||
    match e with
    | doubleQuotes => c = '"'
    | braces _ => c = '"' || c = '\x7d'
    | _ => false

end Enclosure

/-- The text up to a closing backquote, without the backslashes that are needed inside. -/
def backquoted (quoted : Bool) : Nat → List Char → List Char → Option (List Char × List Char)
  | 0, _, _ => none
  | n + 1, acc, s =>
    match s with
    | [] => none
    | '\x60' :: r => some (acc.reverse, r)
    | '\\' :: c :: r =>
      if ['$', '\x60', '\\'].contains c || (quoted && c = '"') then backquoted quoted n (c :: acc) r
      else backquoted quoted n (c :: '\\' :: acc) r
    | c :: r => backquoted quoted n (c :: acc) r

/-- The name of a parameter at the front: a variable, a digit, or a special character. -/
def parameterName (braced : Bool) (s : List Char) : List Char :=
  match s with
  | c :: _ =>
    if isNameStart c then s.takeWhile isNameChar
    else if c.isDigit then if braced then s.takeWhile Char.isDigit else [c]
    else if ['?', '$', '!', '#', '@', '*', '-'].contains c then [c]
    else []
  | [] => []

/-- Takes the lines of a document out of the script, up to the line that ends it. -/
def documentLines (tabs : Bool) (delimiter : String) : Nat → List Char → List Char × List Char
  | 0, s => ([], s)
  | n + 1, s =>
    let line := s.takeWhile (· ≠ '\n')
    let after := s.drop (line.length + 1)
    let isLast := line.length = s.length
    let line := if tabs then line.dropWhile (· = '\t') else line
    if String.ofList line = delimiter then ([], after)
    else if isLast then (line, [])
    else
      let (body, after) := documentLines tabs delimiter n after
      (line ++ '\n' :: body, after)

/-- The word without its quotes, and whether it had any. -/
def delimiterOf (w : Word) : String × Bool :=
  (String.ofList (w.filterMap fun s => match s with | Segment.char c _ => some c | _ => none),
    w.any fun s => match s with | Segment.char _ quoted => quoted | Segment.quotes => true | _ => false)

/-- The descriptor that a redirection names, and the operator behind it. -/
def redirection? (s : List Char) : Option (Option Nat × String) :=
  let (fd, s) := match s with
    | d :: c :: r => if d.isDigit && (c = '<' || c = '>') then (some (d.toNat - 48), c :: r) else (none, s)
    | s => (none, s)
  (["<<-", "<<", "<&", "<>", "<", ">>", ">&", ">|", ">"].find? fun op => op.toList.isPrefixOf s).map fun op => (fd, op)

/-- The name and the value of an assignment. -/
def assignment? (w : Word) : Option (String × Word) :=
  let name := w.takeWhile fun s => match s with | Segment.char c false => c ≠ '=' | _ => false
  match Word.bare? name, w.drop name.length with
  | some text, Segment.char '=' false :: value => if isName text.toList then some (text, value) else none
  | _, _ => none

mutual

/-- The segments up to the end of their enclosure. -/
def segments : Nat → Enclosure → Reading Word
  | 0, _ => tooDeep
  | n + 1, e => do
    let s ← rest
    if e.ends s then pure []
    else match s with
      | [] => if e = .word || e = .document then pure [] else malformed e.complaint
      | '\\' :: '\n' :: _ => do skip 2; segments n e
      | '\\' :: c :: _ =>
        if e = .word || e = .braces false || e.escapes c then do
          skip 2
          return .char c true :: (← segments n e)
        else do
          skip 1
          return .char '\\' e.quotes :: (← segments n e)
      | '\'' :: r =>
        if e.quotes then do
          skip 1
          return .char '\'' true :: (← segments n e)
        else do
          let text := r.takeWhile (· ≠ '\'')
          if text.length = r.length then
            skipAll
            malformed "Unterminated quoted string"
          skip (text.length + 2)
          return .quotes :: text.map (Segment.char · true) ++ (← segments n e)
      | '"' :: _ =>
        if e = .document || e.quotes && e matches .parentheses _ then do
          skip 1
          return .char '"' true :: (← segments n e)
        else do
          skip 1
          let inner ← segments n .doubleQuotes
          skip 1
          return .quotes :: inner ++ (← segments n e)
      | '$' :: _ => do
        let first ← dollar n e.quotes
        return first ++ (← segments n e)
      | '\x60' :: r =>
        match backquoted e.quotes r.length [] r with
        | none => do
          skipAll
          malformed "EOF in backquote substitution"
        | some (text, after) => do
          let s ← get
          set { s with rest := text }
          let script ← program n
          set { s with rest := after, line := s.line + r.count '\n' - after.count '\n' }
          return .output script e.quotes :: (← segments n e)
      | '(' :: _ => do
        skip 1
        return .char '(' e.quotes ::
          (← segments n (match e with | .parentheses d => .parentheses (d + 1) | e => e))
      | ')' :: _ => do
        skip 1
        return .char ')' e.quotes ::
          (← segments n (match e with | .parentheses d => .parentheses (d - 1) | e => e))
      | c :: _ => do
        if c = '\n' && e = .braces false then malformed e.complaint
        skip 1
        return .char c e.quotes :: (← segments n e)

/-- What a dollar sign stands for. -/
def dollar : Nat → Bool → Reading Word
  | 0, _ => tooDeep
  | n + 1, quoted => do
    if ← accept "$((" then
      let body ← segments n (.parentheses 0)
      skip 2
      return [.arithmetic body quoted]
    if ← accept "$(" then
      let script ← program n
      operator ")"
      return [.output script quoted]
    if ← accept "$\x7b" then return [← braced n quoted]
    skip 1
    match parameterName false (← rest) with
    | [] => pure [.char '$' quoted]
    | name => do
      skip name.length
      pure [.parameter (String.ofList name) .value quoted]

/-- A parameter between braces. -/
def braced : Nat → Bool → Reading Segment
  | 0, _ => tooDeep
  | n + 1, quoted => do
    let s ← rest
    let (size, s) := match s with
      | '#' :: c :: r => if c = '\x7d' then (false, s) else (true, c :: r)
      | s => (false, s)
    let name := parameterName true s
    skip ((if size then 1 else 0) + name.length)
    let orEmpty ← accept ":"
    let inner : Reading Word := segments n (.braces quoted)
    let pattern : Reading Word := segments n (.braces false)
    let use ←
      if size then pure Use.length
      else if ← accept "-" then do pure (Use.default orEmpty (← inner))
      else if ← accept "=" then do pure (Use.assign orEmpty (← inner))
      else if ← accept "?" then do pure (Use.demand orEmpty (← inner))
      else if ← accept "+" then do pure (Use.alternative orEmpty (← inner))
      else if ← accept "##" then do pure (Use.trimStart true (← pattern))
      else if ← accept "#" then do pure (Use.trimStart false (← pattern))
      else if ← accept "%%" then do pure (Use.trimEnd true (← pattern))
      else if ← accept "%" then do pure (Use.trimEnd false (← pattern))
      else pure Use.value
    if !name.isEmpty then
      if ← accept "\x7d" then return .parameter (String.ofList name) use quoted
    let _ ← inner
    if ← accept "\x7d" then pure (.parameter "" .malformed quoted) else malformed (Enclosure.complaint (.braces quoted))

/-- A redirection whose operator comes next. -/
def redirect : Nat → Option Nat → String → Reading Redirect
  | 0, _, _ => tooDeep
  | n + 1, fd, op => do
    skip ((if fd.isSome then 1 else 0) + op.length)
    blanks
    let word ← segments n .word
    if word.isEmpty then unexpected
    match op with
    | "<" => pure (.file (fd.getD 0) .read word)
    | "<>" => pure (.file (fd.getD 0) .both word)
    | ">>" => pure (.file (fd.getD 1) .append word)
    | "<&" => pure (.copy (fd.getD 0) word)
    | ">&" => pure (.copy (fd.getD 1) word)
    | "<<" => document n (fd.getD 0) false word
    | "<<-" => document n (fd.getD 0) true word
    | _ => pure (.file (fd.getD 1) .write word)

/-- A document below the line with its redirection. -/
def document : Nat → Nat → Bool → Word → Reading Redirect
  | 0, _, _, _ => tooDeep
  | n + 1, fd, tabs, word => do
    let s ← get
    let line := s.rest.takeWhile (· ≠ '\n')
    let (delimiter, quoted) := delimiterOf word
    let lines := s.rest.drop (line.length + 1)
    let (body, after) := documentLines tabs delimiter s.rest.length lines
    let onward : Source :=
      { s with rest := line ++ '\n' :: after, below := s.below + lines.count '\n' - after.count '\n' }
    if quoted then
      set onward
      pure (.here fd (body.map (Segment.char · true)))
    else
      set { s with rest := body, line := s.line + 1 + s.below, below := 0 }
      let segments ← segments n .document
      set onward
      pure (.here fd segments)

/-- The redirections behind a command. -/
def redirects : Nat → Reading (List Redirect)
  | 0 => tooDeep
  | n + 1 => do
    blanks
    match redirection? (← rest) with
    | none => pure []
    | some (fd, op) => do
      let r ← redirect n fd op
      return r :: (← redirects n)

/-- The words and redirections of a simple command; assignments only come first. -/
def simpleParts : Nat → Bool → Reading (List (String × Word) × List Word × List Redirect)
  | 0, _ => tooDeep
  | n + 1, first => do
    blanks
    let s ← rest
    match redirection? s with
    | some (fd, op) => do
      let r ← redirect n fd op
      let (as, ws, rs) ← simpleParts n first
      pure (as, ws, r :: rs)
    | none =>
      match s with
      | [] => pure ([], [], [])
      | c :: _ =>
        if endsWord c then pure ([], [], [])
        else do
          let word ← segments n .word
          match if first then assignment? word else none with
          | some a => do
            let (as, ws, rs) ← simpleParts n true
            pure (a :: as, ws, rs)
          | none => do
            let (as, ws, rs) ← simpleParts n false
            pure (as, word :: ws, rs)

/-- The words up to the end of a list of words. -/
def wordList : Nat → Reading (List Word)
  | 0 => tooDeep
  | n + 1 => do
    blanks
    match ← rest with
    | [] => pure []
    | c :: _ =>
      if endsWord c then pure []
      else do
        let w ← segments n .word
        return w :: (← wordList n)

/-- The patterns of an arm. -/
def patterns : Nat → Reading (List Word)
  | 0 => tooDeep
  | n + 1 => do
    blanks
    let w ← segments n .word
    blanks
    if ← accept "|" then return w :: (← patterns n)
    operator ")"
    pure [w]

/-- The arms of a selection. -/
def arms : Nat → Reading (List (List Word × Command))
  | 0 => tooDeep
  | n + 1 => do
    newlines (← rest).length
    if (← bareWord) = "esac" then pure []
    else do
      let _ ← accept "("
      let ps ← patterns n
      let body ← program n
      blanks
      if ← accept ";;" then return (ps, body) :: (← arms n)
      newlines (← rest).length
      if (← bareWord) = "esac" then pure [(ps, body)] else expecting ";;"

/-- A condition and what depends on it, behind `if` or `elif`. -/
def branches : Nat → Reading Command
  | 0 => tooDeep
  | n + 1 => do
    let condition ← block n
    keyword "then"
    let yes ← block n
    blanks
    match ← bareWord with
    | "elif" => do
      skip 4
      return .branch condition yes (← branches n) []
    | "else" => do
      skip 4
      let no ← block n
      keyword "fi"
      pure (.branch condition yes no [])
    | _ => do
      keyword "fi"
      pure (.branch condition yes .nothing [])

/-- A command between two bars of a pipeline. -/
def command : Nat → Reading Command
  | 0 => tooDeep
  | n + 1 => do
    blanks
    if ← accept "(" then
      let body ← block n
      operator ")"
      return .subshell body (← redirects n)
    match ← bareWord with
    | "\x7b" => do
      skip 1
      let body ← block n
      keyword "\x7d"
      return .group body (← redirects n)
    | "if" => do
      skip 2
      match ← branches n with
      | .branch condition yes no _ => return .branch condition yes no (← redirects n)
      | c => pure c
    | "while" => do
      skip 5
      repetition n true
    | "until" => do
      skip 5
      repetition n false
    | "for" => do
      skip 3
      blanks
      let name ← bareWord
      if !isName name.toList then malformed "Bad for loop variable"
      skip name.length
      newlines (← rest).length
      let words ←
        if (← bareWord) = "in" then do
          skip 2
          let ws ← wordList n
          blanks
          if !(← accept ";") && !(← startsWith "\n") then unexpected
          pure (some ws)
        else do
          let _ ← accept ";"
          pure none
      newlines (← rest).length
      keyword "do"
      let body ← block n
      keyword "done"
      return .each name words body (← redirects n)
    | "case" => do
      skip 4
      blanks
      let word ← segments n .word
      if word.isEmpty then misplaced (← nextToken) "word"
      newlines (← rest).length
      keyword "in"
      let as ← arms n
      keyword "esac"
      return .select word as (← redirects n)
    | word =>
      if closers.contains word then unexpected
      else simple n

/-- A loop behind its first word. -/
def repetition : Nat → Bool → Reading Command
  | 0, _ => tooDeep
  | n + 1, truth => do
    let condition ← block n
    keyword "do"
    let body ← block n
    keyword "done"
    return .loop truth condition body (← redirects n)

/-- A simple command, or the definition of a function. -/
def simple : Nat → Reading Command
  | 0 => tooDeep
  | n + 1 => do
    let line := (← get).line
    let (as, ws, rs) ← simpleParts n true
    if as.isEmpty && ws.isEmpty && rs.isEmpty then unexpected
    match as, ws, rs with
    | [], [w], [] =>
      match Word.bare? w with
      | some name =>
        if ← accept "(" then do
          blanks
          if !(← accept ")") then
            -- words that are special elsewhere are plain ones here
            let token ← nextToken
            let token := if isReserved (← bareWord) then "word" else token
            misplaced token "\")\""
          if !isName name.toList || specialNames.contains name then malformed "Bad function name"
          newlines (← rest).length
          return .define name (← command n)
        else pure (.simple as ws rs line)
      | none => pure (.simple as ws rs line)
    | _, _, _ => pure (.simple as ws rs line)

/-- The commands of a pipeline from here on. -/
def pipelineParts : Nat → Reading (List Command)
  | 0 => tooDeep
  | n + 1 => do
    let c ← command n
    blanks
    if ← startsWith "||" then pure [c]
    else if ← accept "|" then do
      newlines (← rest).length
      return c :: (← pipelineParts n)
    else pure [c]

def pipeline : Nat → Reading Command
  | 0 => tooDeep
  | n + 1 => do
    blanks
    if (← bareWord) = "!" then do
      skip 1
      blanks
      if (← bareWord) = "!" then unexpected
      return .not (← pipeline n)
    match ← pipelineParts n with
    | [c] => pure c
    | cs => pure (.pipeline cs)

/-- Goes on with a chain of commands that depend on those before. -/
def chain : Nat → Command → Reading Command
  | 0, _ => tooDeep
  | n + 1, first => do
    blanks
    if ← accept "&&" then do
      newlines (← rest).length
      chain n (.both first (← pipeline n))
    else if ← accept "||" then do
      newlines (← rest).length
      chain n (.either first (← pipeline n))
    else pure first

/-- Commands up to the end of a line, or over all lines up to something that closes them. -/
def commands : Nat → Bool → Reading Command
  | 0, _ => tooDeep
  | n + 1, lines => do
    if lines then newlines (← rest).length else blanks
    let s ← rest
    let stops := s.isEmpty || ")".toList.isPrefixOf s || ";;".toList.isPrefixOf s || "\n".toList.isPrefixOf s ||
      closers.contains (← bareWord)
    if stops then pure .nothing
    else do
      let first ← chain n (← pipeline n)
      blanks
      let s ← rest
      if ";;".toList.isPrefixOf s then pure first
      else if ← accept ";" then return .sequence first (← commands n lines)
      else if ← accept "&" then return .sequence (.background first) (← commands n lines)
      else if lines && (← startsWith "\n") then return .sequence first (← commands n lines)
      else pure first

/-- All commands up to something that closes them. -/
def program : Nat → Reading Command
  | 0 => tooDeep
  | n + 1 => commands n true

/-- The commands of a block, which is not empty. -/
def block : Nat → Reading Command
  | 0 => tooDeep
  | n + 1 => do
    match ← program n with
    | .nothing => if (← rest).isEmpty then pure .nothing else unexpected
    | c => pure c

end

/-- The commands of the next line that has any. -/
def line (n : Nat) : Reading (Option Command) := do
  newlines n
  if (← rest).isEmpty then pure none
  else do
    let c ← commands n false
    blanks
    if (← rest).isEmpty || (← accept "\n") then pure (some c) else unexpected

end Reading

/-- The commands of the next line, and what is left of the script. -/
def nextLine (s : Source) : Except Malformed (Option Command × Source) :=
  (Reading.line (16 * s.rest.length + 64)).run s

end ScriptRunner.Shell
