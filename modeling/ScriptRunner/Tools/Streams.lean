import ScriptRunner.Shell.Condition
import ScriptRunner.Tools.Files

/-!
# Tools for streams

The programs that scripts cut, count, sort and produce text with, and those that only wait or only exit.
-/

namespace ScriptRunner.Tools

/-- The lines of some bytes; the last one may lack its end. -/
def byteLines (data : List UInt8) : List (List UInt8) :=
  let (line, lines) := data.foldl (fun (acc : List UInt8 × List (List UInt8)) b =>
    if b = 10 then ([], acc.1.reverse :: acc.2) else (b :: acc.1, acc.2)) ([], [])
  (if line.isEmpty then lines else line.reverse :: lines).reverse

/-- The bytes of some lines. -/
def ofLines (lines : List (List UInt8)) : List UInt8 := (lines.map (· ++ [10])).flatten

/-- A number of nanoseconds, written in seconds or with a unit behind it. -/
def nanosOf? (text : String) : Option Nat :=
  let (digits, unit) := match text.toList.reverse with
    | 's' :: r => (r.reverse, 1)
    | 'm' :: r => (r.reverse, 60)
    | 'h' :: r => (r.reverse, 3600)
    | 'd' :: r => (r.reverse, 86400)
    | _ => (text.toList, 1)
  let whole := digits.takeWhile Char.isDigit
  let part := match digits.drop whole.length with
    | [] => some []
    | '.' :: r => some r
    | _ => none
  match part with
  | none => none
  | some part =>
    if !part.all Char.isDigit || (whole.isEmpty && part.isEmpty) then none
    else
      let value (ds : List Char) : Nat := ds.foldl (fun n c => n * 10 + (c.toNat - 48)) 0
      let ninth := (part ++ List.replicate 9 '0').take 9
      some ((value whole * 1000000000 + value ninth) * unit)

def sleep : Tool := fun words => do
  match words.mapM nanosOf? with
  | some [] => lacking "sleep" "operand"
  | some times => do
    Act.sleep (times.foldl (· + ·) 0)
    pure 0
  | none => do
    let bad := words.filter fun w => (nanosOf? w).isNone
    Act.print 2 (String.join (bad.map fun w => "sleep: invalid time interval " ++ shown w ++ "\n") ++
      "Try 'sleep --help' for more information.\n")
    pure 1

/-- A count of lines or bytes: from the start on where a plus sign stands before it. -/
structure Count where
  bytes : Bool := false
  plus : Bool := false
  size : Nat := 10

/-- The count that a number is. -/
def Count.ofChars (bytes : Bool) (s : List Char) : Count :=
  match s with
  | '+' :: ds => ⟨bytes, true, ((String.ofList ds).toNat?).getD 0⟩
  | ds => ⟨bytes, false, ((String.ofList ds).toNat?).getD 0⟩

/-- The count that options give, and the words that are left. -/
def countOf : List String → Count × List String
  | [] => ({}, [])
  | w :: rest =>
    match w.toList with
    | ['-', k] =>
      if k = 'n' || k = 'c' then (.ofChars (k = 'c') (rest.headD "").toList, rest.drop 1)
      else (.ofChars false [k], rest)
    | '-' :: k :: ds =>
      if k = 'n' || k = 'c' then (.ofChars (k = 'c') ds, rest) else (.ofChars false (k :: ds), rest)
    | _ => ({}, w :: rest)

/-- Passes the first bytes on, so many of them. -/
def pourBytes (source target : Nat) : Nat → Nat → Act (Except FileFault Unit)
  | 0, _ => pure (.ok ())
  | fuel + 1, count => do
    if count = 0 then pure (.ok ())
    else match ← Act.ask (.read source (min count 65536)) with
      | .error e => pure (.error e)
      | .ok [] => pure (.ok ())
      | .ok data =>
        match ← Act.ask (.write target data) with
        | .error e => pure (.error e)
        | .ok () => pourBytes source target fuel (count - data.length)

/-- Passes the first lines on, so many of them. -/
def pourLines (source target : Nat) : Nat → Nat → Act (Except FileFault Unit)
  | 0, _ => pure (.ok ())
  | fuel + 1, count => do
    if count = 0 then pure (.ok ())
    else match ← Act.ask (.read source 65536) with
      | .error e => pure (.error e)
      | .ok [] => pure (.ok ())
      | .ok data =>
        let ends := data.count 10
        let part := if ends < count then data else ofLines ((byteLines data).take count)
        match ← Act.ask (.write target part) with
        | .error e => pure (.error e)
        | .ok () => pourLines source target fuel (count - ends)

/-- The line above a part of a file, where there are several files. -/
def heading (paths : List String) (path : String) : String :=
  if paths.length < 2 then ""
  else (if paths.head? = some path then "" else "\n") ++ "==> " ++ path ++ " <==\n"

def head : Tool := fun words => do
  let (count, paths) := countOf words
  forEach (if paths.isEmpty then ["-"] else paths) fun path => withFile "head" path fun fd => do
    Act.print 1 (heading paths path)
    if count.bytes then pourBytes fd 1 streamFuel count.size else pourLines fd 1 streamFuel count.size

/-- Works on all bytes of the input or of some files, and writes what comes of them. -/
def filter (name : String) (paths : List String) (f : List UInt8 → List UInt8) (headed : Bool := false) : Act Nat :=
  forEach (if paths.isEmpty then ["-"] else paths) fun path => withFile name path fun fd => do
    match ← Act.readAll fd streamFuel [] with
    | .error e => pure (.error e)
    | .ok data => do
      let out := (if headed then Text.encode (heading paths path) else []) ++ f data
      if out.isEmpty then pure (.ok ()) else Act.ask (.write 1 out)

def tail : Tool := fun words =>
  let (count, paths) := countOf words
  let left (size : Nat) : Nat := if count.plus then count.size - 1 else size - count.size
  let part (data : List UInt8) : List UInt8 :=
    if count.bytes then data.drop (left data.length)
    else
      let lines := byteLines data
      let part := ofLines (lines.drop (left lines.length))
      if data.getLast? = some 10 then part else part.dropLast
  filter "tail" paths part true

/-- The bytes of a set of characters, with ranges and escapes. -/
def byteSet : Nat → List UInt8 → List UInt8
  | 0, _ => []
  | _, [] => []
  | n + 1, 92 :: c :: r =>
    let isOctal (b : UInt8) : Bool := 48 ≤ b && b ≤ 55
    if isOctal c then
      let ds := ((c :: r).take 3).takeWhile isOctal
      (ds.foldl (fun (v : Nat) (d : UInt8) => v * 8 + (d.toNat - 48)) 0).toUInt8 :: byteSet n ((c :: r).drop ds.length)
    else ((Shell.Formatted.escapeOf? (Char.ofNat c.toNat)).getD c.toNat).toUInt8 :: byteSet n r
  | n + 1, a :: 45 :: b :: r =>
    (List.range (b.toNat + 1 - a.toNat)).map (fun i => (a.toNat + i).toUInt8) ++ byteSet n r
  | n + 1, c :: r => c :: byteSet n r

def setOf (text : String) : List UInt8 :=
  let bytes := Text.encode text
  let range (a b : Char) : List UInt8 := (List.range (b.toNat + 1 - a.toNat)).map fun i => (a.toNat + i).toUInt8
  match text with
  | "[:upper:]" => range 'A' 'Z'
  | "[:lower:]" => range 'a' 'z'
  | "[:digit:]" => range '0' '9'
  | "[:space:]" => [9, 10, 11, 12, 13, 32]
  | "[:alpha:]" => range 'A' 'Z' ++ range 'a' 'z'
  | _ => byteSet bytes.length bytes

/-- Runs of equal bytes of a set, each as one byte. -/
def squeezed (set : List UInt8) : List UInt8 → List UInt8
  | a :: b :: r => if a = b && set.contains a then squeezed set (b :: r) else a :: squeezed set (b :: r)
  | r => r

def tr : Tool := fun words =>
  let (options, sets) := optionsOf words
  let first := setOf (sets.headD "")
  let second := setOf (sets.getD 1 "")
  let member (b : UInt8) : Bool := first.contains b != (options.contains 'c' || options.contains 'C')
  filter "tr" [] fun data =>
    if options.contains 'd' then data.filter (!member ·)
    else if second.isEmpty then squeezed first data
    else
      let padded := second ++ List.replicate (first.length - second.length) (second.getLastD 0)
      let table := first.zip padded
      let out := data.map fun b =>
        if options.contains 'c' || options.contains 'C' then if member b then second.getLastD 0 else b
        else (table.reverse.lookup b).getD b
      if options.contains 's' then squeezed second out else out

private def wordCount (data : List UInt8) : Nat :=
  (data.foldl (fun (acc : Nat × Bool) b =>
    let blank := b = 32 || (9 ≤ b && b ≤ 13)
    (if !blank && acc.2 then acc.1 + 1 else acc.1, blank)) (0, true)).1

def wc : Tool := fun words =>
  let (options, paths) := optionsOf words
  let wanted := fun k => options.isEmpty || options.contains k
  let counts (data : List UInt8) : List Nat :=
    (if wanted 'l' then [data.count 10] else []) ++ (if wanted 'w' then [wordCount data] else []) ++
      (if wanted 'c' then [data.length] else [])
  let line (width : Nat) (counts : List Nat) (label : List String) : String :=
    " ".intercalate ((counts.map fun n => "".pushn ' ' (width - (toString n).length) ++ toString n) ++ label) ++ "\n"
  do
    let mut code := 0
    let mut files := []
    for path in if paths.isEmpty then ["-"] else paths do
      match ← contentOf path with
      | .ok data => files := files ++ [(path, data)]
      | .error e => do
        say "wc" (named path ++ ": " ++ e.reason)
        code := 1
    let all := (files.map (·.2)).flatten
    let width := if paths.length ≤ 1 && (counts []).length = 1 then 1
      else if paths.isEmpty then 7 else (toString all.length).length
    for (path, data) in files do
      Act.print 1 (line width (counts data) (if paths.isEmpty then [] else [path]))
    if paths.length > 1 then Act.print 1 (line width (counts all) ["total"])
    return code

private def leadingNumber (line : List UInt8) : Int :=
  let s := line.dropWhile (· = 32)
  let (negative, ds) := match s with
    | 45 :: r => (true, r)
    | r => (false, r)
  let n : Nat := (ds.takeWhile fun b => 48 ≤ b && b ≤ 57).foldl (fun v d => v * 10 + (d.toNat - 48)) 0
  if negative then -n else n

def sort : Tool := fun words =>
  let (options, paths) := optionsOf words
  filter "sort" paths fun data =>
    let before (a b : List UInt8) : Bool :=
      if options.contains 'n' && leadingNumber a ≠ leadingNumber b then leadingNumber a < leadingNumber b
      else decide (a ≤ b)
    let lines := (byteLines data).mergeSort before
    let lines := if options.contains 'u' then lines.eraseDups else lines
    ofLines (if options.contains 'r' then lines.reverse else lines)

/-- Neighbours that are equal, with how many they are. -/
def runs : List (List UInt8) → List (Nat × List UInt8)
  | [] => []
  | l :: rest =>
    match runs rest with
    | (n, m) :: more => if l = m then (n + 1, m) :: more else (1, l) :: (n, m) :: more
    | [] => [(1, l)]

def uniq : Tool := fun words =>
  let (options, paths) := optionsOf words
  filter "uniq" paths fun data =>
    ofLines ((runs (byteLines data)).map fun r =>
      if options.contains 'c' then
        let t := toString r.1
        Text.encode ("".pushn ' ' (7 - t.length) ++ t ++ " ") ++ r.2
      else r.2)

def seq : Tool := fun words => do
  let range (first step last : Int) : List Int :=
    let count := if step = 0 then 0 else (Int.fdiv (last - first) step + 1).toNat
    (List.range count).map fun (i : Nat) => first + step * i
  match words.mapM String.toInt? with
  | some [last] => go (range 1 1 last)
  | some [first, last] => go (range first 1 last)
  | some [first, step, last] => go (range first step last)
  | _ => do
    say "seq" "invalid argument"
    pure 1
where
  go (ns : List Int) : Act Nat := do
    Act.print 1 (String.join (ns.map fun n => toString n ++ "\n"))
    pure 0

/-- Writes a line again and again, as long as somebody reads. -/
def repeatLine (data : List UInt8) : Nat → Act Nat
  | 0 => pure 0
  | fuel + 1 => do
    match ← Act.ask (.write 1 data) with
    | .error _ => pure 1
    | .ok () => repeatLine data fuel

def yes : Tool := fun words =>
  let line := if words.isEmpty then "y" else " ".intercalate words
  repeatLine (Text.encode (String.join (List.replicate 512 (line ++ "\n")))) streamFuel

def tee : Tool := fun words => do
  let (options, paths) := optionsOf words
  let data ← Act.readAll 0 streamFuel []
  let bytes := match data with | .ok bytes => bytes | .error _ => []
  let _ ← Act.ask (.write 1 bytes)
  forEach paths fun path => do
    match ← Act.ask (.openFile 3 path (if options.contains 'a' then .append else .write)) with
    | .error e => do
      say "tee" (path ++ ": " ++ e.reason)
      pure false
    | .ok () => do
      let _ ← Act.ask (.write 3 bytes)
      Act.ask (.close 3)
      pure true

/-- A size in bytes, perhaps with a unit behind it. -/
def sizeOf? (text : String) : Option Nat :=
  let digits := text.toList.takeWhile Char.isDigit
  let unit := match String.ofList (text.toList.drop digits.length) with
    | "" => some 1
    | "c" => some 1
    | "b" => some 512
    | "k" => some 1024
    | "K" => some 1024
    | "M" => some 1048576
    | _ => none
  (String.ofList digits).toNat?.bind fun n => unit.map (n * ·)

/-- Copies blocks from a file or the input to a file or the output. -/
def dd : Tool := fun words => do
  let value? (name : String) : Option String :=
    (words.find? (·.startsWith (name ++ "="))).map fun w => (w.drop (name.length + 1)).toString
  let size := ((value? "bs").bind sizeOf?).getD 512
  let limit := ((value? "count").bind sizeOf?).map (· * size)
  let source ← match value? "if" with
    | some path => Act.ask (.openFile 3 path .read)
    | none => Act.ask (.copy 0 3)
  let target ← match value? "of" with
    | some path => Act.ask (.openFile 4 path .write)
    | none => Act.ask (.copy 1 4)
  match source, target with
  | .ok _, .ok _ => do
    let r ← match limit with
      | some n => pourBytes 3 4 streamFuel n
      | none => pour 3 4 streamFuel
    return match r with | .ok () => 0 | .error _ => 1
  | .error e, _ => do
    say "dd" ("failed to open " ++ shown ((value? "if").getD "-") ++ ": " ++ e.reason)
    pure 1
  | _, .error e => do
    say "dd" ("failed to open " ++ shown ((value? "of").getD "-") ++ ": " ++ e.reason)
    pure 1

/-- Prints its arguments; escapes count only if an option says so. -/
def echo : Tool := fun words => do
  let isOption (w : String) : Bool := match w.toList with
    | '-' :: c :: r => (c :: r).all (['n', 'e', 'E'].contains ·)
    | _ => false
  let options := (words.takeWhile isOption).flatMap fun w => w.toList.drop 1
  let texts := words.dropWhile isOption
  let line := !options.contains 'n'
  let escapes := ((options.filter (· ≠ 'n')).getLast?.map (· == 'e')).getD false
  let data := if escapes then Shell.Formatted.echo line texts
    else Text.encode (" ".intercalate texts ++ if line then "\n" else "")
  let _ ← Act.ask (.write 1 data)
  pure 0

def printf : Tool := fun words => do
  match words with
  | [] => do
    say "printf" "missing operand"
    pure 1
  | format :: arguments => do
    let p := Shell.Formatted.write format arguments
    let _ ← Act.ask (.write 1 p.bytes)
    for c in p.complaints do
      say "printf" c
    pure (if p.complaints.isEmpty then 0 else 1)

def test : Tool := fun words => do
  let (tree, cwd) ← Act.ask .look
  match Shell.Condition.holds ⟨tree, cwd⟩ words with
  | .ok true => pure 0
  | .ok false => pure 1
  | .error e => do
    say "test" e
    pure 2

/-- The tools of a machine, by name. -/
def all : List (String × Tool) :=
  [("basename", basename), ("cat", cat), ("cp", cp), ("dd", dd), ("dirname", dirname), ("echo", echo),
    ("false", fun _ => pure 1), ("head", head), ("ln", ln), ("ls", ls), ("mkdir", mkdir), ("mv", mv),
    ("printf", printf), ("pwd", pwd), ("rm", rm), ("rmdir", rmdir), ("seq", seq), ("sleep", sleep), ("sort", sort),
    ("tail", tail), ("tee", tee), ("test", test), ("touch", touch), ("tr", tr), ("true", fun _ => pure 0),
    ("uniq", uniq), ("wc", wc), ("yes", yes)]

end ScriptRunner.Tools
