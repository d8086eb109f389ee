import ScriptRunner.Document.Basic
import ScriptRunner.Json.Token

/-!
# Reading JSON

The document of a JSON text, built from its tokens with a stack of open lists and tables.  Values that are well-formed
and yet cannot be read (half characters, numbers out of range, nesting deeper than `maxDepth`) become
`Document.broken`, so that they do no harm where nobody reads them.
-/

namespace ScriptRunner.Json

/-- The deepest nesting that is read. -/
def maxDepth : Nat := 127

/-- A list or table that is not closed yet, the latest entry first. -/
inductive Frame where
  | list (items : List Document)
  /-- The entries, the key of the value to come, and whether some key is malformed. -/
  | table (entries : List (String × Document)) (key : Option String) (bad : Bool)

/-- What may come next. -/
inductive Expect where
  | value
  /-- A value, or the end of a list just opened. -/
  | valueOrClose
  | key
  /-- A key, or the end of a table just opened. -/
  | keyOrClose
  | colon
  /-- A comma or the end of the innermost frame. -/
  | more
  /-- Nothing: the outermost value is there. -/
  | nothing
  deriving DecidableEq

/-- The decimal digits of a number, without sign, point and exponent. -/
private def valueOf (digits : List Char) : Nat := digits.foldl (fun n c => 10 * n + (c.toNat - '0'.toNat)) 0

/-- The exponent of a number. -/
private def exponentOf (s : List Char) : Int :=
  match s with
  | '-' :: r => -(valueOf r : Int)
  | '+' :: r => valueOf r
  | r => valueOf r

/-- The number is less than `2 ^ 1024`, with the last half unit of the largest double left out. -/
def isBounded (lexeme : List Char) : Bool :=
  let body := match lexeme with
    | '-' :: r => r
    | r => r
  let isMark (c : Char) : Bool := c = 'e' || c = 'E'
  let mantissa := body.takeWhile fun c => !isMark c
  let exponent := exponentOf ((body.dropWhile fun c => !isMark c).drop 1)
  let whole := mantissa.takeWhile (· ≠ '.')
  let fraction := (mantissa.dropWhile (· ≠ '.')).drop 1
  let m := valueOf (whole ++ fraction)
  let e := exponent - fraction.length
  let limit := Nat.pow 2 1024 - Nat.pow 2 970
  if m = 0 then true
  -- beyond these exponents the digits do not matter
  else if 400 < e then false
  else if e < -(mantissa.length : Int) then true
  else if 0 ≤ e then decide (m * Nat.pow 10 e.toNat < limit)
  else decide (m < limit * Nat.pow 10 (-e).toNat)

/-- The value of a number. -/
def numberValue (lexeme : List Char) : Document :=
  let isInteger := lexeme.all fun c => c.isDigit || c = '-'
  let n : Int := match lexeme with
    | '-' :: r => -(valueOf r : Int)
    | r => valueOf r
  if isInteger && lexeme ≠ ['-', '0'] && decide (-(Nat.pow 2 63 : Int) ≤ n) && decide (n < Nat.pow 2 64) then .integer n
  else if isBounded lexeme then .real
  else .broken

/-- The value of a token that is a value by itself. -/
def leaf? : Token → Option Document
  | .text (some s) => some (.text s)
  | .text none => some .broken
  | .number lexeme => some (numberValue lexeme)
  | .null => some .null
  | .flag b => some (.flag b)
  | _ => none

/-- The reader between two tokens. -/
structure Reader where
  expect : Expect
  stack : List Frame := []
  result : Option Document := none

/-- A value is complete: it belongs to the innermost frame, or is the outermost one. -/
def Reader.put (stack : List Frame) (d : Document) : Reader :=
  match stack with
  | [] => ⟨.nothing, [], some d⟩
  | .list items :: outer => ⟨.more, .list (d :: items) :: outer, none⟩
  | .table entries key bad :: outer =>
    match key with
    | some k => ⟨.more, .table ((k, d) :: entries) none bad :: outer, none⟩
    | none => ⟨.more, .table entries none bad :: outer, none⟩

/-- The value of a frame that is closed at some depth. -/
def Frame.close (depth : Nat) : Frame → Document
  | .list items => if maxDepth < depth then .broken else .list items.reverse
  | .table entries _ bad => if bad || maxDepth < depth then .broken else .table entries.reverse

/-- Takes one token. -/
def Reader.step? (r : Reader) (t : Token) : Option Reader :=
  let beginValue (t : Token) : Option Reader :=
    match t with
    | .openList => some ⟨.valueOrClose, .list [] :: r.stack, none⟩
    | .openTable => some ⟨.keyOrClose, .table [] none false :: r.stack, none⟩
    | t => (leaf? t).map (Reader.put r.stack)
  let closeTop (t : Token) : Option Reader :=
    match t, r.stack with
    | .closeList, f@(.list _) :: outer => some (Reader.put outer (f.close r.stack.length))
    | .closeTable, f@(.table _ _ _) :: outer => some (Reader.put outer (f.close r.stack.length))
    | _, _ => none
  let takeKey (t : Token) : Option Reader :=
    match t, r.stack with
    | .text (some s), .table entries _ bad :: outer => some ⟨.colon, .table entries (some s) bad :: outer, none⟩
    | .text none, .table entries _ _ :: outer => some ⟨.colon, .table entries none true :: outer, none⟩
    | _, _ => none
  match r.expect with
  | .value => beginValue t
  | .valueOrClose => if t = .closeList then closeTop t else beginValue t
  | .key => takeKey t
  | .keyOrClose => if t = .closeTable then closeTop t else takeKey t
  | .colon => if t = .colon then some { r with expect := .value } else none
  | .more =>
    if t = .comma then
      match r.stack with
      | .list _ :: _ => some { r with expect := .value }
      | .table _ _ _ :: _ => some { r with expect := .key }
      | [] => none
    else closeTop t
  | .nothing => none

/-- The document of some tokens. -/
def ofTokens? (ts : List Token) : Option Document := (ts.foldlM Reader.step? ⟨.value, [], none⟩).bind (·.result)

/-- Reads a JSON text. -/
def parse? (text : String) : Option Document := (tokens? text.toList).bind ofTokens?

end ScriptRunner.Json
