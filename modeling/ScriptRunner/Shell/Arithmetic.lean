import ScriptRunner.Shell.Syntax

/-!
# Arithmetic in scripts

Expressions of whole numbers of 64 bits, variables and the usual operators.  The value of an
expression may depend on variables and may change them.
-/

namespace ScriptRunner.Shell

namespace Arithmetic

inductive Token where
  | number (n : Int)
  | name (s : String)
  | op (s : String)
  /-- A character that no expression has. -/
  | stray (c : Char)
  deriving DecidableEq, Repr

/-- The operators, the longer ones first. -/
def operators : List String :=
  ["<<=", ">>=", "<<", ">>", "<=", ">=", "==", "!=", "&&", "||", "+=", "-=", "*=", "/=", "%=", "&=", "|=", "^=",
    "+", "-", "*", "/", "%", "<", ">", "=", "&", "|", "^", "!", "~", "?", ":", "(", ")"]

def digitValue (c : Char) : Nat :=
  if c.isDigit then c.toNat - '0'.toNat
  else if 'a' ≤ c && c ≤ 'z' then c.toNat - 'a'.toNat + 10
  else if 'A' ≤ c && c ≤ 'Z' then c.toNat - 'A'.toNat + 10
  else 99

private def valueIn (base : Nat) (digits : List Char) : Nat := digits.foldl (fun n c => n * base + digitValue c) 0

/-- The number at the front of a text, and the rest of the text: octal digits follow a zero, hexadecimal ones `0x`. -/
def leading? (s : List Char) : Option (Nat × List Char) :=
  let run (base : Nat) (s : List Char) : Nat × List Char :=
    let digits := s.takeWhile (digitValue · < base)
    (valueIn base digits, s.drop digits.length)
  match s with
  | '0' :: x :: d :: r =>
    some (if (x = 'x' || x = 'X') && digitValue d < 16 then run 16 (d :: r) else run 8 s)
  | c :: _ => if c = '0' then some (run 8 s) else if c.isDigit then some (run 10 s) else none
  | [] => none

/-- The largest number of 64 bits. -/
def largest : Nat := Nat.pow 2 63 - 1

/-- The number of 64 bits that a number wraps to. -/
def wrapped (n : Int) : Int := Int.bmod n (Nat.pow 2 64)

/-- The 64 bits of a number, read without a sign. -/
def unsigned (n : Int) : Nat := (n % Nat.pow 2 64).toNat

/-- The parts of an expression.  A number that is too large is the largest one. -/
def tokens : Nat → List Char → List Token
  | 0, _ => []
  | _, [] => []
  | n + 1, c :: r =>
    if c = ' ' || c = '\t' || c = '\n' then tokens n r
    else if isNameStart c then
      let name := (c :: r).takeWhile isNameChar
      .name (String.ofList name) :: tokens n ((c :: r).drop name.length)
    else match leading? (c :: r) with
      | some (v, rest) => .number (min v largest) :: tokens n rest
      | none =>
        match operators.find? fun o => o.toList.isPrefixOf (c :: r) with
        | some o => .op o :: tokens n ((c :: r).drop o.length)
        | none => .stray c :: tokens n r

inductive Fault where
  /-- Something else had to come next. -/
  | expecting (what : String)
  | divisionByZero
  /-- The value of a variable is no number. -/
  | illegal (value : String)
  deriving DecidableEq, Repr

namespace Fault

def noOperand : Fault := expecting "primary"

/-- What is said of a fault in an expression. -/
def message (text : String) : Fault → String
  | expecting what => "arithmetic expression: expecting " ++ what ++ ": \"" ++ text ++ "\""
  | divisionByZero => "arithmetic expression: division by zero: \"" ++ text ++ "\""
  | illegal value => "Illegal number: " ++ value

end Fault

/-- How tightly an operator between two operands binds. -/
def level? : String → Option Nat
  | "||" => some 1
  | "&&" => some 2
  | "|" => some 3
  | "^" => some 4
  | "&" => some 5
  | "==" => some 6
  | "!=" => some 6
  | "<" => some 7
  | ">" => some 7
  | "<=" => some 7
  | ">=" => some 7
  | "<<" => some 8
  | ">>" => some 8
  | "+" => some 9
  | "-" => some 9
  | "*" => some 10
  | "/" => some 10
  | "%" => some 10
  | _ => none

private def truth (b : Bool) : Int := if b then 1 else 0

private def bits (f : Nat → Nat → Nat) (a b : Int) : Int := wrapped (f (unsigned a) (unsigned b))

/-- The value of an operation. -/
def operate (op : String) (a b : Int) : Except Fault Int :=
  match op with
  | "+" => .ok (wrapped (a + b))
  | "-" => .ok (wrapped (a - b))
  | "*" => .ok (wrapped (a * b))
  | "/" => if b = 0 then .error .divisionByZero else .ok (wrapped (Int.tdiv a b))
  | "%" => if b = 0 then .error .divisionByZero else .ok (Int.tmod a b)
  | "<<" => .ok (wrapped (a * Nat.pow 2 (b % 64).toNat))
  | ">>" => .ok (a / Nat.pow 2 (b % 64).toNat)
  | "<" => .ok (truth (a < b))
  | ">" => .ok (truth (a > b))
  | "<=" => .ok (truth (a ≤ b))
  | ">=" => .ok (truth (a ≥ b))
  | "==" => .ok (truth (a = b))
  | "!=" => .ok (truth (a ≠ b))
  | "&" => .ok (bits Nat.land a b)
  | "^" => .ok (bits Nat.xor a b)
  | "|" => .ok (bits Nat.lor a b)
  | "&&" => .ok (truth (a ≠ 0 && b ≠ 0))
  | "||" => .ok (truth (a ≠ 0 || b ≠ 0))
  | _ => .error .noOperand

/-- The variables, as far as they matter to expressions, and the assignments made so far. -/
structure State where
  value : String → String
  assigned : List (String × String) := []
  tokens : List Token
  /-- Operands that are passed over are not evaluated. -/
  skipping : Bool := false

abbrev Evaluation := StateT State (Except Fault)

/-- The value of a variable as a number; blanks may surround it. -/
def valueOf (s : State) (name : String) : Except Fault Int :=
  let text := (s.assigned.lookup name).getD (s.value name)
  let isBlank (c : Char) : Bool := c = ' ' || c = '\t' || c = '\n'
  let (negative, digits) := match text.toList.dropWhile isBlank with
    | '-' :: r => (true, r)
    | '+' :: r => (false, r)
    | r => (false, r)
  if text.isEmpty then .ok 0
  else match leading? digits with
    | some (v, rest) =>
      let fits := v ≤ if negative then largest + 1 else largest
      if rest.all isBlank && fits then .ok (if negative then -(v : Int) else v)
      else .error (.illegal text)
    | none => .error (.illegal text)

def next? : Evaluation (Option Token) := do return (← get).tokens.head?

def advance : Evaluation Unit := modify fun s => { s with tokens := s.tokens.drop 1 }

def acceptOp (op : String) : Evaluation Bool := do
  if (← next?) = some (.op op) then advance; pure true else pure false

/-- Evaluates something, or passes over it. -/
def passing {α : Type} (skip : Bool) (x : Evaluation α) : Evaluation α := do
  let old := (← get).skipping
  modify fun s => { s with skipping := old || skip }
  let a ← x
  modify fun s => { s with skipping := old }
  pure a

def assign (name : String) (v : Int) : Evaluation Int := do
  modify fun s => if s.skipping then s else { s with assigned := (name, toString v) :: s.assigned }
  pure v

def combine (op : String) (a b : Int) : Evaluation Int := do
  if (← get).skipping then pure 0 else liftM (operate op a b)

mutual

/-- An assignment or a choice. -/
def expression : Nat → Evaluation Int
  | 0 => throw .noOperand
  | n + 1 => do
    match (← get).tokens with
    | .name x :: .op "=" :: rest => do
      modify fun s => { s with tokens := rest }
      assign x (← expression n)
    | .name x :: .op o :: rest =>
      if o.length ≥ 2 && o.toList.getLast? = some '=' && !(["==", "!=", "<=", ">="].contains o) then do
        modify fun s => { s with tokens := rest }
        let old ← liftM (valueOf (← get) x)
        let v ← expression n
        assign x (← combine (String.ofList o.toList.dropLast) old v)
      else choice n
    | _ => choice n

def choice : Nat → Evaluation Int
  | 0 => throw .noOperand
  | n + 1 => do
    let c ← operand n
    let v ← binary n 1 c
    if ← acceptOp "?" then
      let a ← passing (v = 0) (expression n)
      if !(← acceptOp ":") then throw (.expecting "':'")
      let b ← passing (v ≠ 0) (expression n)
      pure (if v ≠ 0 then a else b)
    else pure v

/-- Goes on behind a first operand, with operators that bind at least so tightly. -/
def binary : Nat → Nat → Int → Evaluation Int
  | 0, _, _ => throw .noOperand
  | n + 1, least, a => do
    match ← next? with
    | some (.op o) =>
      match level? o with
      | none => pure a
      | some l =>
        if l < least then pure a
        else do
          advance
          let skip := (o = "&&" && a = 0) || (o = "||" && a ≠ 0)
          let b ← passing skip (do
            let b ← operand n
            binary n (l + 1) b)
          let c ← combine o a b
          binary n least c
    | _ => pure a

def operand : Nat → Evaluation Int
  | 0 => throw .noOperand
  | n + 1 => do
    match ← next? with
    | some (.number v) => do
      advance
      pure v
    | some (.name x) => do
      advance
      liftM (valueOf (← get) x)
    | some (.op "(") => do
      advance
      let v ← expression n
      if ← acceptOp ")" then pure v else throw (.expecting "')'")
    | some (.op "-") => do
      advance
      return wrapped (-(← operand n))
    | some (.op "+") => do
      advance
      operand n
    | some (.op "!") => do
      advance
      return truth ((← operand n) = 0)
    | some (.op "~") => do
      advance
      return wrapped (-(← operand n) - 1)
    | _ => throw .noOperand

end

/-- The value of an expression, and the assignments that it makes, the first one first. -/
def evaluate (value : String → String) (text : List Char) : Except Fault (Int × List (String × String)) :=
  let ts := tokens (text.length + 1) text
  match (expression (4 * ts.length + 8)).run ⟨value, [], ts, false⟩ with
  | .error e => .error e
  | .ok (v, s) => if s.tokens.isEmpty then .ok (v, s.assigned.reverse) else .error (.expecting "EOF")

end Arithmetic

end ScriptRunner.Shell
