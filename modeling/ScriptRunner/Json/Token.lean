import ScriptRunner.Text.Blank

/-!
# JSON tokens

The lexemes of a JSON text.  `tokens?` is nothing when some part of the text is no lexeme.
-/

namespace ScriptRunner.Json

inductive Token where
  | openList
  | closeList
  | openTable
  | closeTable
  | comma
  | colon
  /-- A text; nothing if its escapes name half a character. -/
  | text (s : Option String)
  | number (lexeme : List Char)
  | null
  | flag (b : Bool)
  deriving DecidableEq, Repr

/-- The four blanks of the format. -/
def isSpace (c : Char) : Bool := c = ' ' || c = '\t' || c = '\n' || c = '\r'

/-- The part of a text up to its closing quote, and what follows the quote. -/
def cutAtQuote? : List Char → Option (List Char × List Char)
  | [] => none
  | '"' :: rest => some ([], rest)
  | '\\' :: c :: rest => (cutAtQuote? rest).map fun p => ('\\' :: c :: p.1, p.2)
  | c :: rest => (cutAtQuote? rest).map fun p => (c :: p.1, p.2)

theorem cutAtQuote?_length {s a b : List Char} (h : cutAtQuote? s = some (a, b)) : b.length < s.length := by
  fun_induction cutAtQuote? s generalizing a b with
  | case1 => simp at h
  | case2 rest =>
    obtain ⟨rfl, rfl⟩ := by simpa using h
    simp
  | case3 c rest ih =>
    obtain ⟨⟨a', b'⟩, hc, hp⟩ := Option.map_eq_some_iff.1 h
    obtain ⟨rfl, rfl⟩ := by simpa using hp
    have := ih hc
    simp only [List.length_cons]
    omega
  | case4 c rest _ _ ih =>
    obtain ⟨⟨a', b'⟩, hc, hp⟩ := Option.map_eq_some_iff.1 h
    obtain ⟨rfl, rfl⟩ := by simpa using hp
    have := ih hc
    simp only [List.length_cons]
    omega

/-- The value of four hexadecimal digits. -/
def hexValue? (c : Char) : Option Nat :=
  if '0' ≤ c ∧ c ≤ '9' then some (c.toNat - '0'.toNat)
  else if 'a' ≤ c ∧ c ≤ 'f' then some (c.toNat - 'a'.toNat + 10)
  else if 'A' ≤ c ∧ c ≤ 'F' then some (c.toNat - 'A'.toNat + 10)
  else none

def hex4? (a b c d : Char) : Option Nat := do
  let a ← hexValue? a
  let b ← hexValue? b
  let c ← hexValue? c
  let d ← hexValue? d
  pure (((a * 16 + b) * 16 + c) * 16 + d)

/-- The character of a one-letter escape. -/
def shortEscape? : Char → Option Char
  | '"' => some '"'
  | '\\' => some '\\'
  | '/' => some '/'
  | 'b' => some '\x08'
  | 'f' => some '\x0c'
  | 'n' => some '\n'
  | 'r' => some '\r'
  | 't' => some '\t'
  | _ => none

/-- The first half of a character beyond the first plane. -/
def isHighHalf (n : Nat) : Bool := 0xd800 ≤ n && n < 0xdc00

def isLowHalf (n : Nat) : Bool := 0xdc00 ≤ n && n < 0xe000

/-- The units that the inside of a text stands for; nothing if an escape or a character is not allowed. -/
def units? : List Char → Option (List Nat)
  | [] => some []
  | '\\' :: 'u' :: a :: b :: c :: d :: rest => do
    let n ← hex4? a b c d
    (units? rest).map (n :: ·)
  | '\\' :: c :: rest => do
    let e ← shortEscape? c
    (units? rest).map (e.toNat :: ·)
  | c :: rest => if c.toNat < 0x20 || c = '\\' then none else (units? rest).map (c.toNat :: ·)

/-- The characters of some units; nothing if a half has no partner. -/
def joinHalves? : List Nat → Option (List Char)
  | [] => some []
  | n :: m :: rest =>
    if isHighHalf n then
      if isLowHalf m then (joinHalves? rest).map (Char.ofNat (0x10000 + (n - 0xd800) * 0x400 + (m - 0xdc00)) :: ·)
      else none
    else if isLowHalf n then none
    else (joinHalves? (m :: rest)).map (Char.ofNat n :: ·)
  | [n] => if isHighHalf n || isLowHalf n then none else some [Char.ofNat n]

/-- The characters that numbers and words are made of. -/
def isWordChar (c : Char) : Bool := c.isAlphanum || c = '+' || c = '-' || c = '.'

/-- Some digits, and the rest. -/
def digits (s : List Char) : List Char × List Char := s.span Char.isDigit

/-- The part of a number after its integer: a fraction, an exponent, or neither. -/
def isNumberTail (s : List Char) : Bool :=
  let isExponent : List Char → Bool
    | [] => true
    | 'e' :: '+' :: r => !r.isEmpty && r.all Char.isDigit
    | 'e' :: '-' :: r => !r.isEmpty && r.all Char.isDigit
    | 'E' :: '+' :: r => !r.isEmpty && r.all Char.isDigit
    | 'E' :: '-' :: r => !r.isEmpty && r.all Char.isDigit
    | 'e' :: r => !r.isEmpty && r.all Char.isDigit
    | 'E' :: r => !r.isEmpty && r.all Char.isDigit
    | _ => false
  match s with
  | '.' :: r => !(digits r).1.isEmpty && isExponent (digits r).2
  | r => isExponent r

/-- A number of the format. -/
def isNumber (s : List Char) : Bool :=
  let body := match s with
    | '-' :: r => r
    | r => r
  match digits body with
  | (['0'], r) => isNumberTail r
  | ('0' :: _, _) => false
  | ([], _) => false
  | (_, r) => isNumberTail r

/-- The token of a word. -/
def wordToken? (word : List Char) : Option Token :=
  if word = "null".toList then some .null
  else if word = "true".toList then some (.flag true)
  else if word = "false".toList then some (.flag false)
  else if isNumber word then some (.number word)
  else none

def punctuation? : Char → Option Token
  | '[' => some .openList
  | ']' => some .closeList
  | '\x7b' => some .openTable
  | '\x7d' => some .closeTable
  | ',' => some .comma
  | ':' => some .colon
  | _ => none

/-- The lexemes of a text. -/
def tokens? (s : List Char) : Option (List Token) :=
  match s with
  | [] => some []
  | c :: rest =>
    if isSpace c then tokens? rest
    else match punctuation? c with
      | some t => (tokens? rest).map (t :: ·)
      | none =>
        if c = '"' then
          match _ : cutAtQuote? rest with
          | none => none
          | some (inside, after) => do
            let units ← units? inside
            (tokens? after).map (.text ((joinHalves? units).map String.ofList) :: ·)
        else if isWordChar c then do
          let t ← wordToken? (c :: rest.takeWhile isWordChar)
          (tokens? (rest.dropWhile isWordChar)).map (t :: ·)
        else none
termination_by s.length
decreasing_by
  · simp
  · simp
  · have := cutAtQuote?_length (by assumption)
    simp only [List.length_cons]
    omega
  · have := (List.dropWhile_sublist (l := rest) isWordChar).length_le
    simp only [List.length_cons]
    omega

end ScriptRunner.Json
