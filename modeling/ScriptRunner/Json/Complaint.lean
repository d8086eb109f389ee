import ScriptRunner.Json.Parser
import ScriptRunner.Text.Quoted

/-!
# Complaints about a JSON text

What is wrong with a text that cannot be read, and where.  A scan goes through the text value by value and stops at the
first fault.  Lines and columns count from 1 and 0, columns in bytes; a fault that has to do with what comes next is
placed behind the next byte.
-/

namespace ScriptRunner.Json

inductive Fault where
  | endInList
  | endInTable
  | endInText
  | endInValue
  | expectedColon
  | expectedListEnd
  | expectedTableEnd
  | expectedWord
  | expectedValue
  | invalidEscape
  | invalidNumber
  | outOfRange
  | controlCharacter
  | keyIsNoText
  | loneHalf
  | missingHalf
  | trailingComma
  | trailingCharacters
  | tooDeep
  /-- What was found, and what a reader wanted. -/
  | wrongKind (found wanted : String)
  | repeatedField (name : String)
  /-- A value of none of the kinds that a choice allows. -/
  | noVariant (choice : String)
  deriving DecidableEq, Repr

def Fault.message : Fault → String
  | endInList => "EOF while parsing a list"
  | endInTable => "EOF while parsing an object"
  | endInText => "EOF while parsing a string"
  | endInValue => "EOF while parsing a value"
  | expectedColon => "expected \x60:\x60"
  | expectedListEnd => "expected \x60,\x60 or \x60]\x60"
  | expectedTableEnd => "expected \x60,\x60 or \x60\x7d\x60"
  | expectedWord => "expected ident"
  | expectedValue => "expected value"
  | invalidEscape => "invalid escape"
  | invalidNumber => "invalid number"
  | outOfRange => "number out of range"
  | controlCharacter => "control character (\\u0000-\\u001F) found while parsing a string"
  | keyIsNoText => "key must be a string"
  | loneHalf => "lone leading surrogate in hex escape"
  | missingHalf => "unexpected end of hex escape"
  | trailingComma => "trailing comma"
  | trailingCharacters => "trailing characters"
  | tooDeep => "recursion limit exceeded"
  | wrongKind found wanted => "invalid type: " ++ found ++ ", expected " ++ wanted
  | repeatedField name => "duplicate field \x60" ++ name ++ "\x60"
  | noVariant choice => "data did not match any variant of untagged enum " ++ choice

/-- How far a scan has come: what is left, and the line and column of the next character. -/
structure Place where
  rest : List Char
  line : Nat := 1
  column : Nat := 0
  deriving DecidableEq, Repr

/-- The place behind the next character. -/
def Place.next (p : Place) : Place :=
  match p.rest with
  | [] => p
  | '\n' :: rest => ⟨rest, p.line + 1, 0⟩
  | c :: rest => ⟨rest, p.line, p.column + c.utf8Size⟩

/-- A fault with its line and column. -/
structure Complaint where
  fault : Fault
  line : Nat
  column : Nat
  deriving DecidableEq, Repr

def Complaint.message (c : Complaint) : String := s!"{c.fault.message} at line {c.line} column {c.column}"

/-- Why a scan stops: a fault with a place of its own, or one that belongs to the value around the place. -/
inductive Stop where
  | placed (c : Complaint)
  | unplaced (f : Fault) (p : Place)

abbrev Scan := StateT Place (Except Stop)

namespace Scan

/-- Stops where the scan is. -/
def failHere {α : Type} (f : Fault) : Scan α := do
  let p ← get
  throw (.placed ⟨f, p.line, p.column⟩)

/-- Stops behind the next byte. -/
def failAhead {α : Type} (f : Fault) : Scan α := do
  let p ← get
  match p.rest with
  | [] => throw (.placed ⟨f, p.line, p.column⟩)
  | '\n' :: _ => throw (.placed ⟨f, p.line + 1, 0⟩)
  | _ => throw (.placed ⟨f, p.line, p.column + 1⟩)

def peek : Scan (Option Char) := do pure (← get).rest.head?

def eat : Scan Unit := modify Place.next

/-- Passes over characters as long as a test holds. -/
def skipWhile (test : Char → Bool) : Scan Unit := modify fun p => go p p.rest
where
  /-- The place behind the characters. -/
  go (p : Place) : List Char → Place
    | [] => p
    | c :: rest => if test c then go p.next rest else p

/-- The next character that is no blank. -/
def upcoming : Scan (Option Char) := do
  skipWhile isSpace
  peek

/-- The rest of a word. -/
def word : List Char → Scan Unit
  | [] => pure ()
  | c :: rest => do
    match ← peek with
    | none => failHere .endInValue
    | some d =>
      eat
      if d = c then word rest else failHere .expectedWord

/-- Four hexadecimal digits. -/
def hex : Scan Nat := do
  match (← get).rest with
  | a :: b :: c :: d :: _ =>
    eat; eat; eat; eat
    match hex4? a b c d with
    | some n => pure n
    | none => failHere .invalidEscape
  | _ =>
    skipWhile fun _ => true
    failHere .endInText

/-- One character of an escape for a pair of halves. -/
private def pairMark (mark : Char) : Scan Unit := do
  match ← peek with
  | none => failHere .endInText
  | some c =>
    eat
    if c = mark then pure () else failHere .missingHalf

/-- What follows the backslash of an escape.  Halves need partners if `strict` says so. -/
def escape (strict : Bool) : Scan Unit := do
  match ← peek with
  | none => failHere .endInText
  | some c =>
    eat
    if (shortEscape? c).isSome then pure ()
    else if c = 'u' then
      let n ← hex
      if strict && isLowHalf n then failHere .loneHalf
      else if strict && isHighHalf n then
        pairMark '\\'
        pairMark 'u'
        if isLowHalf (← hex) then pure () else failHere .loneHalf
      else pure ()
    else failHere .invalidEscape

/-- The rest of a text behind its opening quote. -/
def textRest (strict : Bool) : Nat → Scan Unit
  | 0 => pure ()
  | fuel + 1 => do
    match ← peek with
    | none => failHere .endInText
    | some c =>
      if c.toNat < 0x20 then if strict then failAhead .controlCharacter else failHere .controlCharacter
      eat
      if c = '"' then pure ()
      else if c = '\\' then
        escape strict
        textRest strict fuel
      else textRest strict fuel

/-- A text, from its opening quote on. -/
def text (strict : Bool) : Scan String := do
  eat
  let before := (← get).rest
  textRest strict (before.length + 1)
  let inside := before.take (before.length - (← get).rest.length - 1)
  pure (String.ofList (((units? inside).bind joinHalves?).getD []))

/-- At least one digit. -/
private def someDigits (atEnd : Fault) : Scan Unit := do
  match ← peek with
  | none => failHere atEnd
  | some c => if c.isDigit then skipWhile Char.isDigit else failAhead .invalidNumber

/-- A number without its sign; yields its characters. -/
def number (strict : Bool) : Scan (List Char) := do
  let before := (← get).rest
  let atEnd : Fault := if strict then .endInValue else .invalidNumber
  match ← peek with
  | none => failHere atEnd
  | some '0' =>
    eat
    if ((← peek).map Char.isDigit).getD false then failAhead .invalidNumber
  | some c => if c.isDigit then skipWhile Char.isDigit else failAhead .invalidNumber
  if (← peek) = some '.' then
    eat
    someDigits atEnd
  if (← peek) = some 'e' || (← peek) = some 'E' then
    eat
    if (← peek) = some '+' || (← peek) = some '-' then eat
    someDigits atEnd
  let lexeme := before.take (before.length - (← get).rest.length)
  if strict && !isBounded lexeme then failHere .outOfRange
  pure lexeme

/-! ### Values -/

/-- Behind an item of a list: whether another one follows. -/
private def anotherItem (strict : Bool) : Scan Bool := do
  match ← upcoming with
  | none => failAhead .endInList
  | some ']' =>
    eat
    pure false
  | some ',' =>
    eat
    match ← upcoming with
    | none => failAhead .endInValue
    | some ']' => if strict then failAhead .trailingComma else pure true
    | some _ => pure true
  | some _ => failAhead .expectedListEnd

/-- Behind an entry of a table: whether another one follows, whose key comes next. -/
def anotherEntry (strict : Bool) : Scan Bool := do
  match ← upcoming with
  | none => failAhead .endInTable
  | some '\x7d' => pure false
  | some ',' =>
    eat
    match ← upcoming with
    | none => failAhead (if strict then .endInValue else .endInTable)
    | some '"' => pure true
    | some '\x7d' => failAhead (if strict then .trailingComma else .keyIsNoText)
    | some _ => failAhead .keyIsNoText
  | some _ => failAhead .expectedTableEnd

/-- At the start of a table: whether it has an entry, whose key comes next. -/
def firstEntry : Scan Bool := do
  match ← upcoming with
  | none => failAhead .endInTable
  | some '\x7d' => pure false
  | some '"' => pure true
  | some _ => failAhead .keyIsNoText

/-- The colon behind a key. -/
def colon : Scan Unit := do
  match ← upcoming with
  | none => failAhead .endInTable
  | some ':' => eat
  | some _ => failAhead .expectedColon

mutual

/-- Any value; `strict` if somebody reads it. -/
def value (strict : Bool) : Nat → (depth : Nat) → Scan Unit
  | 0, _ => pure ()
  | fuel + 1, depth => do
    match ← upcoming with
    | none => failAhead .endInValue
    | some 'n' =>
      eat
      word "ull".toList
    | some 't' =>
      eat
      word "rue".toList
    | some 'f' =>
      eat
      word "alse".toList
    | some '"' =>
      let _ ← text strict
    | some '-' =>
      eat
      let _ ← number strict
    | some '[' =>
      if strict && maxDepth ≤ depth then failAhead .tooDeep
      eat
      match ← upcoming with
      | none => failAhead .endInList
      | some ']' => eat
      | some _ => items strict fuel (depth + 1)
    | some '\x7b' =>
      if strict && maxDepth ≤ depth then failAhead .tooDeep
      eat
      if ← firstEntry then entries strict fuel (depth + 1)
      eat
    | some c =>
      if c.isDigit then
        let _ ← number strict
      else failAhead .expectedValue

/-- The items of a list, and its end. -/
def items (strict : Bool) : Nat → (depth : Nat) → Scan Unit
  | 0, _ => pure ()
  | fuel + 1, depth => do
    value strict fuel depth
    if ← anotherItem strict then items strict fuel depth

/-- The entries of a table up to its closing brace. -/
def entries (strict : Bool) : Nat → (depth : Nat) → Scan Unit
  | 0, _ => pure ()
  | fuel + 1, depth => do
    let _ ← text strict
    colon
    value strict fuel depth
    if ← anotherEntry strict then entries strict fuel depth

end

/-- Nothing but blanks is left. -/
def finish : Scan Unit := do
  match ← upcoming with
  | none => pure ()
  | some _ => failAhead .trailingCharacters

/-! ### Kinds of values -/

/-- Refuses the value that comes next, which is not of the wanted kind. -/
def refuse (wanted : String) : Scan Unit := do
  let wrong (found : String) : Scan Unit := failHere (.wrongKind found wanted)
  let numeral (sign : String) (lexeme : List Char) : String :=
    let kind := if lexeme.all Char.isDigit then "integer" else "floating point"
    kind ++ " \x60" ++ sign ++ String.ofList lexeme ++ "\x60"
  match ← upcoming with
  | none => failAhead .endInValue
  | some 'n' =>
    eat
    word "ull".toList
    wrong "null"
  | some 't' =>
    eat
    word "rue".toList
    wrong "boolean \x60true\x60"
  | some 'f' =>
    eat
    word "alse".toList
    wrong "boolean \x60false\x60"
  | some '"' =>
    let s ← text true
    wrong ("string " ++ Text.quoted s)
  | some '-' =>
    eat
    wrong (numeral "-" (← number true))
  | some '[' => wrong "sequence"
  | some '\x7b' => wrong "map"
  | some c => if c.isDigit then wrong (numeral "" (← number true)) else failAhead .expectedValue

/-- A text that somebody reads as such. -/
def wantText : Scan Unit := do
  match ← upcoming with
  | none => failAhead .endInValue
  | some '"' =>
    let _ ← text true
  | some _ => refuse "a string"

/-- Null, or something else. -/
def orNull (x : Scan Unit) : Scan Unit := do
  match ← upcoming with
  | some 'n' =>
    eat
    word "ull".toList
  | _ => x

/-- The entries of a table with values of one kind, up to its closing brace. -/
def entriesOf (x : Scan Unit) : Nat → Scan Unit
  | 0 => pure ()
  | fuel + 1 => do
    let _ ← text true
    colon
    x
    if ← anotherEntry true then entriesOf x fuel

/-- A table with values of one kind. -/
def wantTable (x : Scan Unit) : Scan Unit := do
  match ← upcoming with
  | none => failAhead .endInValue
  | some '\x7b' =>
    eat
    if ← firstEntry then entriesOf x ((← get).rest.length + 1)
    eat
  | some _ => refuse "a map"

end Scan

end ScriptRunner.Json
