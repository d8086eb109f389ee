import ScriptRunner.Toml.Scalar
import ScriptRunner.Toml.Table

/-!
# Reading TOML

A TOML text is read line by line: headers, keys with values, comments.  Lists and tables in braces may go over several
lines and are nested at most `maxDepth` deep.
-/

namespace ScriptRunner.Toml

/-- The deepest nesting of lists and tables in braces. -/
def maxDepth : Nat := 80

/-- The text after a comment, up to the line's end. -/
def skipComment? : List Char → Option (List Char)
  | [] => some []
  | '\n' :: rest => some ('\n' :: rest)
  | '\r' :: '\n' :: rest => some ('\r' :: '\n' :: rest)
  | c :: rest => if isControl c then none else skipComment? rest

/-- The text after a line's end, with a comment before it. -/
def endLine? (s : List Char) : Option (List Char) :=
  let ends : List Char → Option (List Char)
    | [] => some []
    | '\n' :: rest => some rest
    | '\r' :: '\n' :: rest => some rest
    | _ => none
  match s.dropWhile isSpace with
  | '#' :: rest => (skipComment? rest).bind ends
  | rest => ends rest

/-- The text after blanks, line ends and comments, with at most `fuel` lines. -/
def skipLines? : (fuel : Nat) → List Char → Option (List Char)
  | 0, _ => none
  | fuel + 1, s =>
    match s.dropWhile isSpace with
    | [] => some []
    | '\n' :: rest => skipLines? fuel rest
    | '\r' :: '\n' :: rest => skipLines? fuel rest
    | '#' :: rest => (skipComment? rest).bind (skipLines? fuel)
    | rest => some rest

/-- One part of a key. -/
def keyPart? (s : List Char) : Option (String × List Char) :=
  match s with
  | '"' :: rest => (line? '"' 0 rest).map fun p => (String.ofList p.1, p.2)
  | '\'' :: rest => (line? '\'' 0 rest).map fun p => (String.ofList p.1, p.2)
  | s =>
    let bare := s.takeWhile isBare
    if bare.isEmpty then none else some (String.ofList bare, s.dropWhile isBare)

/-- The parts of a key, with at most `fuel` parts, and the text after blanks. -/
def key? : (fuel : Nat) → List Char → Option (List String × List Char)
  | 0, _ => none
  | fuel + 1, s => do
    let (part, rest) ← keyPart? (s.dropWhile isSpace)
    match rest.dropWhile isSpace with
    | '.' :: rest => do
      let (parts, rest) ← key? fuel rest
      pure (part :: parts, rest)
    | rest => pure ([part], rest)

/-- The characters that end a word. -/
def endsWord (c : Char) : Bool :=
  isSpace c || ['\n', '\r', ',', '[', ']', '\x7b', '\x7d', '#', '=', '"', '\''].contains c

/-- A word, together with a time that follows a date after one blank. -/
def cutWord (s : List Char) : List Char × List Char :=
  let word := s.takeWhile fun c => !endsWord c
  let rest := s.dropWhile fun c => !endsWord c
  match rest with
  | ' ' :: c :: more =>
    if date? word = some [] && c.isDigit then
      let time := (c :: more).takeWhile fun c => !endsWord c
      (word ++ ' ' :: time, (c :: more).dropWhile fun c => !endsWord c)
    else (word, rest)
  | _ => (word, rest)

mutual

/-- A value at so many levels above the deepest, and the text after it. -/
def value? (depth : Nat) (s : List Char) : Option (Document × List Char) :=
  match s with
  | '"' :: rest => (string? '"' rest).map fun p => (.text (String.ofList p.1), p.2)
  | '\'' :: rest => (string? '\'' rest).map fun p => (.text (String.ofList p.1), p.2)
  | '[' :: rest =>
    match depth with
    | 0 => none
    | depth + 1 => (items? depth (rest.length + 1) [] rest).map fun p => (.list p.1, p.2)
  | '\x7b' :: rest =>
    match depth with
    | 0 => none
    | depth + 1 => (pairs? depth (rest.length + 1) [] rest).map fun p => (.table (entriesDocument p.1), p.2)
  | s =>
    let (word, rest) := cutWord s
    (word? word).map fun d => (d, rest)
termination_by (depth, 0)

/-- The values of a list after some values, the latest first, up to its bracket. -/
def items? (depth : Nat) (fuel : Nat) (found : List Document) (s : List Char) :
    Option (List Document × List Char) :=
  match fuel with
  | 0 => none
  | fuel + 1 => do
    match ← skipLines? (s.length + 1) s with
    | ']' :: rest => pure (found.reverse, rest)
    | s => do
      let (d, rest) ← value? depth s
      match ← skipLines? (rest.length + 1) rest with
      | ',' :: rest => items? depth fuel (d :: found) rest
      | ']' :: rest => pure ((d :: found).reverse, rest)
      | _ => none
termination_by (depth, fuel)

/-- The keys and values of a table in braces after some others, up to its brace. -/
def pairs? (depth : Nat) (fuel : Nat) (found : Entries) (s : List Char) : Option (Entries × List Char) :=
  match fuel with
  | 0 => none
  | fuel + 1 => do
    match ← skipLines? (s.length + 1) s with
    | '\x7d' :: rest => pure (found, rest)
    | s => do
      let (keys, rest) ← key? (s.length + 1) s
      let rest ← expect? '=' rest
      let (d, rest) ← value? depth (rest.dropWhile isSpace)
      let found ← found.add keys.dropLast (keys.getLastD "") d
      match ← skipLines? (rest.length + 1) rest with
      | ',' :: rest => pairs? depth fuel found rest
      | '\x7d' :: rest => pure (found, rest)
      | _ => none
termination_by (depth, fuel)

end

/-- The reader between two lines: the whole table, and the path of the header in force. -/
structure Reader where
  root : Entries := []
  header : List String := []

/-- A header, its brackets taken off. -/
def Reader.openHeader? (r : Reader) (repeated : Bool) (keys : List String) : Option Reader := do
  let key := keys.getLastD ""
  let root ← r.root.within (if repeated then Entries.openNext key else Entries.openTable key) keys.dropLast
  pure ⟨root, keys⟩

/-- Reads one line that is not empty, and gives the text after it. -/
def Reader.line? (r : Reader) (s : List Char) : Option (Reader × List Char) :=
  match s with
  | '[' :: '[' :: rest => do
    let (keys, rest) ← key? (rest.length + 1) rest
    let rest ← expect? ']' rest
    let rest ← expect? ']' rest
    let r ← r.openHeader? true keys
    let rest ← endLine? rest
    pure (r, rest)
  | '[' :: rest => do
    let (keys, rest) ← key? (rest.length + 1) rest
    let rest ← expect? ']' rest
    let r ← r.openHeader? false keys
    let rest ← endLine? rest
    pure (r, rest)
  | s => do
    let (keys, rest) ← key? (s.length + 1) s
    let rest ← expect? '=' rest
    let (d, rest) ← value? maxDepth (rest.dropWhile isSpace)
    let root ← r.root.within (Entries.add keys.dropLast (keys.getLastD "") d) r.header
    let rest ← endLine? rest
    pure (⟨root, r.header⟩, rest)

/-- Reads lines to the end of the text, at most `fuel` of them. -/
def Reader.run? : (fuel : Nat) → Reader → List Char → Option Reader
  | 0, _, _ => none
  | fuel + 1, r, s => do
    match ← skipLines? (s.length + 1) s with
    | [] => pure r
    | s => do
      let (r, rest) ← r.line? s
      Reader.run? fuel r rest

/-- Reads a TOML text. -/
def parse? (text : String) : Option Document :=
  let s := match text.toList with
    | '\ufeff' :: rest => rest
    | s => s
  (Reader.run? (s.length + 1) {} s).map fun r => .table (entriesDocument r.root)

end ScriptRunner.Toml
