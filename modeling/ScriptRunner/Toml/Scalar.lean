import ScriptRunner.Document.Basic
import ScriptRunner.Json.Parser
import ScriptRunner.Text.Lines

/-!
# TOML scalars

Numbers, dates and times, and the two kinds of strings.  Readers of strings give the value and the text that follows;
readers of words say whether a whole word is a scalar.
-/

namespace ScriptRunner.Toml

open Json (hexValue?)

/-- Spaces and tabs. -/
def isSpace (c : Char) : Bool := c = ' ' || c = '\t'

/-- A control character that may stand nowhere; tabs may. -/
def isControl (c : Char) : Bool := (c.toNat < 0x20 && c != '\t') || c.toNat = 0x7f

/-- A character of a bare key. -/
def isBare (c : Char) : Bool := c.isAlphanum || c = '_' || c = '-'

/-! ### Numbers -/

/-- The digits of a run in which single underscores may stand between two digits. -/
def ungrouped? (isDigit : Char → Bool) (s : List Char) : Option (List Char) :=
  let groups := Text.splitOn '_' s
  if groups.all fun g => !g.isEmpty && g.all isDigit then some groups.flatten else none

/-- The value of some digits in a base. -/
def valueIn (base : Nat) (digits : List Char) : Nat :=
  digits.foldl (fun n c => base * n + (hexValue? c).getD 0) 0

/-- A decimal integer has no zero in front. -/
def decimal? (s : List Char) : Option (List Char) :=
  match ungrouped? Char.isDigit s with
  | some ('0' :: _ :: _) => none
  | other => other

/-- An integer of at most 128 bits. -/
def bounded? (n : Int) : Option Document :=
  if -(Nat.pow 2 127 : Int) ≤ n ∧ n < Nat.pow 2 128 then some (.integer n) else none

def isOctal (c : Char) : Bool := '0' ≤ c && c ≤ '7'

def isBinary (c : Char) : Bool := c = '0' || c = '1'

def integer? (s : List Char) : Option Document :=
  match s with
  | '0' :: 'x' :: r => (ungrouped? (fun c => (hexValue? c).isSome) r).bind fun ds => bounded? (valueIn 16 ds)
  | '0' :: 'o' :: r => (ungrouped? isOctal r).bind fun ds => bounded? (valueIn 8 ds)
  | '0' :: 'b' :: r => (ungrouped? isBinary r).bind fun ds => bounded? (valueIn 2 ds)
  | '+' :: r => (decimal? r).bind fun ds => bounded? (valueIn 10 ds)
  | '-' :: r => (decimal? r).bind fun ds => bounded? (-(valueIn 10 ds : Int))
  | r => (decimal? r).bind fun ds => bounded? (valueIn 10 ds)

/-- The digits of an exponent, with its sign. -/
def exponent? (s : List Char) : Option (List Char) :=
  match s with
  | '+' :: r => (ungrouped? Char.isDigit r).map ('+' :: ·)
  | '-' :: r => (ungrouped? Char.isDigit r).map ('-' :: ·)
  | r => ungrouped? Char.isDigit r

/-- A number with a fraction, an exponent, or both. -/
def real? (s : List Char) : Option Document :=
  let body := match s with
    | '+' :: r => r
    | '-' :: r => r
    | r => r
  if body = "inf".toList || body = "nan".toList then some .real
  else
    let isMark (c : Char) : Bool := c = 'e' || c = 'E'
    let mantissa := body.takeWhile fun c => !isMark c
    let tail := body.dropWhile fun c => !isMark c
    let whole := mantissa.takeWhile (· ≠ '.')
    let fraction := mantissa.dropWhile (· ≠ '.')
    let fractionDigits? := match fraction with
      | [] => some []
      | _ :: r => (ungrouped? Char.isDigit r).map ('.' :: ·)
    let exponentDigits? := match tail with
      | [] => some []
      | _ :: r => (exponent? r).map ('e' :: ·)
    match decimal? whole, fractionDigits?, exponentDigits? with
    | some w, some f, some e =>
      if f.isEmpty && e.isEmpty then none
      else if Json.isBounded (w ++ f ++ e) then some .real
      else none
    | _, _, _ => none

/-! ### Dates and times -/

/-- So many digits, and the rest. -/
def fixedDigits? (n : Nat) (s : List Char) : Option (Nat × List Char) :=
  let ds := s.take n
  if ds.length = n && ds.all Char.isDigit then some (valueIn 10 ds, s.drop n) else none

/-- One given character, and the rest. -/
def expect? (c : Char) (s : List Char) : Option (List Char) :=
  match s with
  | d :: rest => if d = c then some rest else none
  | [] => none

def isLeap (year : Nat) : Bool := (year % 4 = 0 && year % 100 ≠ 0) || year % 400 = 0

def daysIn (year month : Nat) : Nat :=
  if month = 2 then (if isLeap year then 29 else 28)
  else if [4, 6, 9, 11].contains month then 30
  else 31

def date? (s : List Char) : Option (List Char) := do
  let (year, s) ← fixedDigits? 4 s
  let s ← expect? '-' s
  let (month, s) ← fixedDigits? 2 s
  let s ← expect? '-' s
  let (day, s) ← fixedDigits? 2 s
  if 1 ≤ month ∧ month ≤ 12 ∧ 1 ≤ day ∧ day ≤ daysIn year month then some s else none

/-- A time of day; its seconds may be missing. -/
def time? (s : List Char) : Option (List Char) := do
  let (hour, s) ← fixedDigits? 2 s
  let s ← expect? ':' s
  let (minute, s) ← fixedDigits? 2 s
  if 23 < hour ∨ 59 < minute then none
  else match s with
    | ':' :: r => do
      let (second, s) ← fixedDigits? 2 r
      if 60 < second then none
      else match s with
        | '.' :: r =>
          let ds := r.takeWhile Char.isDigit
          if ds.isEmpty then none else some (r.dropWhile Char.isDigit)
        | _ => some s
    | _ => some s

/-- The distance from universal time, if there is one. -/
def offset? (s : List Char) : Option (List Char) :=
  match s with
  | 'Z' :: r => some r
  | 'z' :: r => some r
  | c :: r =>
    if c = '+' || c = '-' then do
      let (hour, r) ← fixedDigits? 2 r
      let r ← expect? ':' r
      let (minute, r) ← fixedDigits? 2 r
      if 23 < hour ∨ 59 < minute then none else some r
    else some s
  | [] => some []

/-- A date, a time, or both. -/
def isMoment (s : List Char) : Bool :=
  match date? s with
  | some [] => true
  | some (c :: r) =>
    (c = 'T' || c = 't' || c = ' ') && ((time? r).bind offset?) == some []
  | none => time? s == some []

/-- The value of a date or time: nothing that a config could use. -/
def moment (s : List Char) : Document := .table [("$__toml_private_datetime", .text (String.ofList s))]

/-- The scalar that a word is. -/
def word? (s : List Char) : Option Document :=
  if s = "true".toList then some (.flag true)
  else if s = "false".toList then some (.flag false)
  else if isMoment s then some (moment s)
  else (integer? s).or (real? s)

/-! ### Strings -/

/-- The value of so many hexadecimal digits, as a character. -/
def hexChar? (s : List Char) : Option Char := do
  let ds ← s.mapM hexValue?
  let n := ds.foldl (fun n d => 16 * n + d) 0
  if n < 0xd800 ∨ (0xe000 ≤ n ∧ n < 0x110000) then some (Char.ofNat n) else none

/-- The character of an escape, and how many characters follow the backslash. -/
def escape? (s : List Char) : Option (Char × Nat) :=
  match s with
  | 'b' :: _ => some ('\x08', 1)
  | 't' :: _ => some ('\t', 1)
  | 'n' :: _ => some ('\n', 1)
  | 'f' :: _ => some ('\x0c', 1)
  | 'r' :: _ => some ('\r', 1)
  | 'e' :: _ => some ('\x1b', 1)
  | '"' :: _ => some ('"', 1)
  | '\\' :: _ => some ('\\', 1)
  | 'x' :: r => if r.length < 2 then none else (hexChar? (r.take 2)).map fun c => (c, 3)
  | 'u' :: r => if r.length < 4 then none else (hexChar? (r.take 4)).map fun c => (c, 5)
  | 'U' :: r => if r.length < 8 then none else (hexChar? (r.take 8)).map fun c => (c, 9)
  | _ => none

/-- The rest of a string of one line, up to its quote.  `skip` characters are taken already. -/
def line? (quote : Char) : (skip : Nat) → List Char → Option (List Char × List Char)
  | _, [] => none
  | skip + 1, _ :: rest => line? quote skip rest
  | 0, c :: rest =>
    if c = quote then some ([], rest)
    else if c = '\\' && quote = '"' then
      match escape? rest with
      | none => none
      | some (e, n) => (line? quote n rest).map fun p => (e :: p.1, p.2)
    else if isControl c then none
    else (line? quote 0 rest).map fun p => (c :: p.1, p.2)

/-- How many blanks and line ends follow. -/
private def blankRun (s : List Char) : Nat := (s.takeWhile fun c => isSpace c || c = '\n' || c = '\r').length

/-- A backslash at the end of a line: only blanks come before the line's end. -/
def endsLine (s : List Char) : Bool :=
  match s.dropWhile isSpace with
  | '\n' :: _ => true
  | '\r' :: '\n' :: _ => true
  | _ => false

/-- The rest of a string of several lines, up to its three quotes; two more quotes may come before them. -/
def lines? (quote : Char) : (skip : Nat) → List Char → Option (List Char × List Char)
  | _, [] => none
  | skip + 1, _ :: rest => lines? quote skip rest
  | 0, c :: rest =>
    if c = quote then
      let run := (rest.takeWhile (· = quote)).length + 1
      if run < 3 then (lines? quote 0 rest).map fun p => (c :: p.1, p.2)
      else if run ≤ 5 then some (List.replicate (run - 3) quote, rest.drop (run - 1))
      else none
    else if c = '\\' && quote = '"' then
      if endsLine rest then lines? quote (blankRun rest) rest
      else match escape? rest with
        | none => none
        | some (e, n) => (lines? quote n rest).map fun p => (e :: p.1, p.2)
    else if c = '\n' then (lines? quote 0 rest).map fun p => (c :: p.1, p.2)
    else if c = '\r' then
      if rest.head? = some '\n' then (lines? quote 0 rest).map fun p => (c :: p.1, p.2) else none
    else if isControl c then none
    else (lines? quote 0 rest).map fun p => (c :: p.1, p.2)

/-- A string, in either kind of quotes, and what follows it. -/
def string? (quote : Char) (s : List Char) : Option (List Char × List Char) :=
  match s with
  | a :: b :: rest =>
    if a = quote && b = quote then
      match rest with
      | '\n' :: r => lines? quote 0 r
      | '\r' :: '\n' :: r => lines? quote 0 r
      | r => lines? quote 0 r
    else line? quote 0 s
  | s => line? quote 0 s

end ScriptRunner.Toml
