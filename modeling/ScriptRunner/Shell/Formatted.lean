import ScriptRunner.Decimal.Rounding
import ScriptRunner.Shell.Arithmetic
import ScriptRunner.Text.Utf8

/-!
# Formatted output

A format with its arguments as bytes: conversions take one argument each, and the format is used again as long as
arguments are left.  Escapes stand for bytes.
-/

namespace ScriptRunner.Shell

namespace Formatted

/-- The byte that a letter stands for behind a backslash. -/
def escapeOf? : Char → Option Nat
  | 'a' => some 7
  | 'b' => some 8
  | 'f' => some 12
  | 'n' => some 10
  | 'r' => some 13
  | 't' => some 9
  | 'v' => some 11
  | '\\' => some 92
  | _ => none

def isOctal (c : Char) : Bool := '0' ≤ c && c ≤ '7'

def octalValue (digits : List Char) : Nat := digits.foldl (fun n c => n * 8 + (c.toNat - 48)) 0

private def bytesOf (c : Char) : List UInt8 := Text.encode c.toString

/-- An escape behind a backslash, with what is left of the text.  In an argument, octal digits follow a zero. -/
def escape (inArgument : Bool) (s : List Char) : List UInt8 × List Char :=
  match s with
  | [] => ([92], [])
  | c :: r =>
    if isOctal c then
      let s := if inArgument then (if c = '0' then r else s) else s
      let digits := (s.take 3).takeWhile isOctal
      ([(octalValue digits).toUInt8], s.drop digits.length)
    else match escapeOf? c with
      | some b => ([b.toUInt8], r)
      | none => (92 :: bytesOf c, r)

/-- The bytes of a text with escapes, and whether a stop is among them. -/
def escaped : Nat → List Char → List UInt8 × Bool
  | 0, _ => ([], false)
  | _, [] => ([], false)
  | _ + 1, '\\' :: 'c' :: _ => ([], true)
  | n + 1, '\\' :: r =>
    let (bs, rest) := escape true r
    let (more, stop) := escaped n rest
    (bs ++ more, stop)
  | n + 1, c :: r =>
    let (more, stop) := escaped n r
    (bytesOf c ++ more, stop)

/-- How a conversion lays out its value. -/
structure Layout where
  left : Bool := false
  zeros : Bool := false
  plus : Bool := false
  blank : Bool := false
  alternate : Bool := false
  width : Nat := 0
  precision : Option Nat := none

/-- Fills up to the width of a layout. -/
def Layout.pad (l : Layout) (bs : List UInt8) : List UInt8 :=
  let fill := List.replicate (l.width - bs.length) (32 : UInt8)
  if l.left then bs ++ fill else fill ++ bs

private def digits (n base : Nat) (upper : Bool) : List Char :=
  let ds := Nat.toDigits base n
  if upper then ds.map Char.toUpper else ds

/-- A number in a layout. -/
def Layout.number (l : Layout) (kind : Char) (n : Int) : List UInt8 :=
  let signed := kind = 'd' || kind = 'i'
  let magnitude := if signed then n.natAbs else Arithmetic.unsigned n
  let base := if kind = 'o' then 8 else if kind = 'x' || kind = 'X' then 16 else 10
  let ds := digits magnitude base (kind = 'X')
  let ds := match l.precision with
    | some p => if p = 0 && magnitude = 0 then [] else List.replicate (p - ds.length) '0' ++ ds
    | none => ds
  let ahead :=
    if signed then if n < 0 then ['-'] else if l.plus then ['+'] else if l.blank then [' '] else []
    else if l.alternate && magnitude ≠ 0 then
      if kind = 'o' then ['0'] else if kind = 'x' then ['0', 'x'] else if kind = 'X' then ['0', 'X'] else []
    else []
  let ds := if l.zeros && !l.left && l.precision.isNone then
      List.replicate (l.width - ahead.length - ds.length) '0' ++ ds else ds
  l.pad (Text.encode (String.ofList (ahead ++ ds)))

/-- A real number in a layout. -/
def Layout.real (l : Layout) (kind : Char) (negative : Bool) (x : Decimal.Ratio) : List UInt8 :=
  let places := l.precision.getD 6
  let text := match kind.toLower with
    | 'e' => Decimal.scientific places x
    | 'g' => Decimal.general (max places 1) x
    | _ => Decimal.fixed places x
  let ds := (if kind.isUpper then text.toUpper else text).toList
  let ahead := if negative then ['-'] else if l.plus then ['+'] else if l.blank then [' '] else []
  let ds := if l.zeros && !l.left then List.replicate (l.width - ahead.length - ds.length) '0' ++ ds else ds
  l.pad (Text.encode (String.ofList (ahead ++ ds)))

/-- The sign of a number, and what follows it; blanks before it do not count. -/
def signOf (s : List Char) : Bool × List Char :=
  match s.dropWhile fun c => c = ' ' || c = '\t' || c = '\n' with
  | '-' :: r => (true, r)
  | '+' :: r => (false, r)
  | r => (false, r)

/-- What is said of an argument whose number ends before some rest. -/
def restComplaint (text : String) (rest : List Char) : Option String :=
  if rest.isEmpty then none else some (text ++ ": not completely converted")

def noNumber (text : String) : String := text ++ ": expected numeric value"

/-- The number that an argument is, and a complaint about it. -/
def numberOf (text : String) : Int × Option String :=
  match text.toList with
  | [] => (0, none)
  | '"' :: c :: _ => (c.toNat, none)
  | '\'' :: c :: _ => (c.toNat, none)
  | s =>
    let (negative, body) := signOf s
    match Arithmetic.leading? body with
    | none => (0, some (noNumber text))
    | some (v, rest) =>
      let n : Int := if negative then -v else v
      if Arithmetic.wrapped n ≠ n then
        (if negative then -Nat.pow 2 63 else Arithmetic.largest, some (text ++ ": Numerical result out of range"))
      else (n, restComplaint text rest)

private def natOf (ds : List Char) : Nat := ds.foldl (fun n c => n * 10 + (c.toNat - 48)) 0

/-- The real number that an argument is, apart from its sign, and a complaint about it. -/
def realOf (text : String) : Bool × Decimal.Ratio × Option String :=
  match text.toList with
  | [] => (false, ⟨0, 1⟩, none)
  | '"' :: c :: _ => (false, ⟨c.toNat, 1⟩, none)
  | '\'' :: c :: _ => (false, ⟨c.toNat, 1⟩, none)
  | s =>
    let (negative, body) := signOf s
    let whole := body.takeWhile Char.isDigit
    let (part, rest) := match body.drop whole.length with
      | '.' :: r => (r.takeWhile Char.isDigit, r.dropWhile Char.isDigit)
      | r => ([], r)
    if whole.isEmpty && part.isEmpty then (false, ⟨0, 1⟩, some (noNumber text))
    else
      let (e, rest) : Int × List Char := match rest with
        | c :: r =>
          let (minus, ds) := match r with
            | '-' :: r => (true, r)
            | '+' :: r => (false, r)
            | r => (false, r)
          let digits := ds.takeWhile Char.isDigit
          if (c = 'e' || c = 'E') && !digits.isEmpty then
            -- beyond these powers every number is out of range
            let n := min (natOf digits) 400
            (if minus then -n else n, ds.drop digits.length)
          else (0, c :: r)
        | [] => (0, [])
      let x := Decimal.Ratio.scaled ⟨natOf (whole ++ part), 1⟩ (e - part.length)
      (negative, if e < -40 then x else Decimal.nearestDouble x, restComplaint text rest)

/-- What a format has come to. -/
structure Progress where
  bytes : List UInt8 := []
  arguments : List String
  complaints : List String := []
  /-- A stop was met. -/
  stopped : Bool := false
  /-- The format is malformed. -/
  invalid : Bool := false
  /-- Some conversion took an argument. -/
  used : Bool := false

namespace Progress

def add (p : Progress) (bs : List UInt8) : Progress := { p with bytes := p.bytes ++ bs }

def next (p : Progress) : String × Progress :=
  (p.arguments.headD "", { p with arguments := p.arguments.drop 1, used := true })

def nextNumber (p : Progress) : Int × Progress :=
  let (text, p) := p.next
  let (n, complaint) := numberOf text
  (n, { p with complaints := p.complaints ++ complaint.toList })

end Progress

/-- Reads the flags of a conversion. -/
def flags (l : Layout) : List Char → Layout × List Char
  | '-' :: r => flags { l with left := true } r
  | '+' :: r => flags { l with plus := true } r
  | ' ' :: r => flags { l with blank := true } r
  | '0' :: r => flags { l with zeros := true } r
  | '#' :: r => flags { l with alternate := true } r
  | s => (l, s)

/-- Reads a number of a layout, which may be the next argument. -/
def amount (p : Progress) (s : List Char) : Int × Progress × List Char :=
  match s with
  | '*' :: r =>
    let (n, p) := p.nextNumber
    (n, p, r)
  | s =>
    let ds := s.takeWhile Char.isDigit
    (natOf ds, p, s.drop ds.length)

/-- One conversion behind its percent sign. -/
def conversion (p : Progress) (s : List Char) : Progress × List Char :=
  let (l, s) := flags {} s
  let (width, p, s) := amount p s
  let l := { l with width := width.natAbs, left := l.left || width < 0 }
  let (l, p, s) := match s with
    | '.' :: r =>
      let (n, p, r) := amount p r
      ({ l with precision := if n < 0 then none else some n.toNat }, p, r)
    | s => (l, p, s)
  match s with
  | [] => ({ p with complaints := p.complaints ++ ["missing format character"], stopped := true, invalid := true }, [])
  | '%' :: r => (p.add [37], r)
  | 's' :: r =>
    let (text, p) := p.next
    let bs := Text.encode text
    (p.add (l.pad (match l.precision with | some n => bs.take n | none => bs)), r)
  | 'b' :: r =>
    let (text, p) := p.next
    let (bs, stop) := escaped text.length text.toList
    ({ p.add (l.pad (match l.precision with | some n => bs.take n | none => bs)) with stopped := stop }, r)
  | 'c' :: r =>
    let (text, p) := p.next
    (p.add (l.pad ((Text.encode text).take 1)), r)
  | k :: r =>
    if ['d', 'i', 'u', 'o', 'x', 'X'].contains k then
      let (n, p) := p.nextNumber
      (p.add (l.number k n), r)
    else if ['e', 'E', 'f', 'F', 'g', 'G'].contains k then
      let (text, p) := p.next
      let (negative, x, complaint) := realOf text
      ({ p.add (l.real k negative x) with complaints := p.complaints ++ complaint.toList }, r)
    else
      let complaint := "%" ++ k.toString ++ ": invalid directive"
      ({ p with complaints := p.complaints ++ [complaint], stopped := true, invalid := true }, [])

/-- One pass over a format. -/
def pass : Nat → Progress → List Char → Progress
  | 0, p, _ => p
  | _, p, [] => p
  | n + 1, p, c :: r =>
    if p.stopped then p
    else if c = '%' then
      let (p, r) := conversion p r
      pass n p r
    else if c = '\\' then
      let (bs, r) := escape false r
      pass n (p.add bs) r
    else pass n (p.add (bytesOf c)) r

/-- Passes over a format until no argument is left. -/
def passes (format : List Char) : Nat → Progress → Progress
  | 0, p => p
  | n + 1, p =>
    let p := pass (format.length + 1) { p with used := false } format
    if p.stopped || p.arguments.isEmpty || !p.used then p else passes format n p

/-- What a format comes to with its arguments. -/
def write (format : String) (arguments : List String) : Progress :=
  passes format.toList (arguments.length + 1) { arguments := arguments }

/-- Words with blanks between them and escapes in them, on one line unless `line` says otherwise. -/
def echo (line : Bool) (words : List String) : List UInt8 :=
  let text := " ".intercalate words
  let (bs, stop) := escaped text.length text.toList
  if stop || !line then bs else bs ++ [10]

end Formatted

end ScriptRunner.Shell
