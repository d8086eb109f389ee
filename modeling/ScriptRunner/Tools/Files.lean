import ScriptRunner.Machine.Program

/-!
# Tools for files

The programs that scripts list, show, make, move and remove files with.
-/

namespace ScriptRunner.Tools

/-- A program without its name: arguments in, exit code out. -/
abbrev Tool := List String → Act Nat

def say (name text : String) : Act Unit := Act.print 2 (name ++ ": " ++ text ++ "\n")

/-- A path between quotes, as messages show it. -/
def shown (path : String) : String := "'" ++ path ++ "'"

/-- A path in front of a message, between quotes only where it is needed. -/
def named (path : String) : String :=
  if path.isEmpty || path.toList.any (fun c => !(c.isAlphanum || "/._-+,:@%".toList.contains c) && c.toNat < 128) then
    shown path
  else path

/-- A message for a call without the words that a program needs. -/
def lacking (name what : String) : Act Nat := do
  Act.print 2 (name ++ ": missing " ++ what ++ "\nTry '" ++ name ++ " --help' for more information.\n")
  pure 1

/-- The options in front, letter by letter, and the other words. -/
def optionsOf (words : List String) : List Char × List String :=
  let isOption (w : String) : Bool := w.startsWith "-" && w.length > 1
  let ahead := words.takeWhile (· ≠ "--")
  let behind := (words.dropWhile (· ≠ "--")).drop 1
  ((ahead.filter isOption).flatMap fun w => w.toList.drop 1, ahead.filter (!isOption ·) ++ behind)

/-- Does something for each word; the exit code is 1 if anything failed. -/
def forEach (words : List String) (f : String → Act Bool) : Act Nat := do
  let mut code := 0
  for w in words do
    if !(← f w) then code := 1
  return code

/-- Changes the files, and says what went wrong. -/
def altering (name complaint : String) (change : Tree → List String → Nat → Except FileFault Tree) : Act Bool := do
  match ← Act.ask (.alter change) with
  | .ok () => pure true
  | .error e => do
    say name (complaint ++ ": " ++ e.reason)
    pure false

/-- Moves everything from one descriptor to another. -/
def pour (source target : Nat) : Nat → Act (Except FileFault Unit)
  | 0 => pure (.ok ())
  | fuel + 1 => do
    match ← Act.ask (.read source 65536) with
    | .error e => pure (.error e)
    | .ok [] => pure (.ok ())
    | .ok data =>
      match ← Act.ask (.write target data) with
      | .error e => pure (.error e)
      | .ok () => pour source target fuel

/-- More portions than any stream has. -/
def streamFuel : Nat := 1000000000

/-- Does something with a file open under descriptor 3, or with the input for a lone dash. -/
def withFile (name path : String) (f : Nat → Act (Except FileFault Unit)) : Act Bool := do
  let finish (r : Except FileFault Unit) : Act Bool := do
    match r with
    | .ok () => pure true
    | .error e => do
      say name (named path ++ ": " ++ e.reason)
      pure false
  if path = "-" then finish (← f 0)
  else
    match ← Act.ask (.openFile 3 path .read) with
    | .error e => finish (.error e)
    | .ok () => do
      let r ← f 3
      Act.ask (.close 3)
      finish r

/-- The bytes with a number before each line, from the one behind `n` on. -/
def numbered (n : Nat) (fresh : Bool) : List UInt8 → List UInt8
  | [] => []
  | b :: rest =>
    let n := if fresh then n + 1 else n
    let ahead := if fresh then Text.encode ("".pushn ' ' (6 - (toString n).length) ++ toString n ++ "\t") else []
    ahead ++ b :: numbered n (b = 10) rest

/-- All bytes of a file, or of the input for a lone dash. -/
def contentOf (path : String) : Act (Except FileFault (List UInt8)) := do
  if path = "-" then Act.readAll 0 streamFuel []
  else do
    let (tree, cwd) ← Act.ask .look
    return tree.read cwd path

def cat : Tool := fun words => do
  let (options, paths) := optionsOf words
  let paths := if paths.isEmpty then ["-"] else paths
  if options.contains 'n' then do
    let mut code := 0
    let mut data := []
    for path in paths do
      match ← contentOf path with
      | .ok more => data := data ++ more
      | .error e => do
        say "cat" (named path ++ ": " ++ e.reason)
        code := 1
    let _ ← Act.ask (.write 1 (numbered 0 true data))
    return code
  else forEach paths fun path => withFile "cat" path fun fd => pour fd 1 streamFuel

/-- The names of a directory that are listed. -/
def listedNames (options : List Char) (n : Node) : List String :=
  let all := n.names.filter fun name => options.contains 'a' || options.contains 'A' || !name.startsWith "."
  let dots := if options.contains 'a' then [".", ".."] else []
  let names := dots ++ all.mergeSort fun a b => decide (a ≤ b)
  if options.contains 'r' then names.reverse else names

def ls : Tool := fun words => do
  let (options, paths) := optionsOf words
  let (tree, cwd) ← Act.ask .look
  let paths := (if paths.isEmpty then ["."] else paths).mergeSort fun a b => decide (a ≤ b)
  let found := paths.map fun path => (path, tree.resolve cwd path)
  let mut code := 0
  for (path, r) in found do
    match r with
    | .error e => do
      say "ls" ("cannot access " ++ shown path ++ ": " ++ e.reason)
      code := 2
    | .ok _ => pure ()
  let isListed (n : Node) : Bool := n.isDir && !options.contains 'd'
  let alone := found.filterMap fun e => match e.2 with
    | .ok (_, n) => if isListed n then none else some e.1
    | .error _ => none
  let dirs := found.filterMap fun e => match e.2 with
    | .ok (_, n) => if isListed n then some (e.1, n) else none
    | .error _ => none
  Act.print 1 (String.join (alone.map (· ++ "\n")))
  let mut first := alone.isEmpty
  for (path, n) in dirs do
    let title := if paths.length > 1 then (if first then "" else "\n") ++ path ++ ":\n" else ""
    Act.print 1 (title ++ String.join ((listedNames options n).map (· ++ "\n")))
    first := false
  return code

def rm : Tool := fun words => do
  let (options, paths) := optionsOf words
  let force := options.contains 'f'
  let deep := options.contains 'r' || options.contains 'R'
  if paths.isEmpty then
    if force then pure 0 else lacking "rm" "operand"
  else forEach paths fun path => do
    let (tree, cwd) ← Act.ask .look
    match tree.resolve cwd path false with
    | .error e =>
      if force && e = .notFound then pure true
      else do
        say "rm" ("cannot remove " ++ shown path ++ ": " ++ e.reason)
        pure false
    | .ok (_, n) =>
      if n.isDir && !deep then do
        say "rm" ("cannot remove " ++ shown path ++ ": Is a directory")
        pure false
      else altering "rm" ("cannot remove " ++ shown path) fun t cwd _ => t.remove cwd path

def mkdir : Tool := fun words => do
  let (options, paths) := optionsOf words
  if paths.isEmpty then lacking "mkdir" "operand"
  else forEach paths fun path => altering "mkdir" ("cannot create directory " ++ shown path) fun t cwd _ =>
    if options.contains 'p' then t.makeDirs cwd path else t.makeDir cwd path

def rmdir : Tool := fun words => do
  let (_, paths) := optionsOf words
  if paths.isEmpty then lacking "rmdir" "operand"
  else forEach paths fun path => altering "rmdir" ("failed to remove " ++ shown path) fun t cwd _ => do
    match ← t.resolve cwd path false with
    | (_, .dir []) => t.remove cwd path
    | (_, .dir _) => throw .notEmpty
    | _ => throw .notDirectory

def touch : Tool := fun words => do
  let (options, paths) := optionsOf words
  if paths.isEmpty then lacking "touch" "file operand"
  else forEach paths fun path => altering "touch" ("cannot touch " ++ shown path) fun t cwd now =>
    match t.resolve cwd path with
    | .ok _ => t.touch cwd path now
    | .error .notFound => if options.contains 'c' then .ok t else t.write cwd path [] now
    | .error e => .error e

/-- Where something goes that is put to a path: below a directory it keeps its name. -/
def destination (t : Tree) (cwd : List String) (source target : String) : String :=
  match t.resolve cwd target with
  | .ok (_, .dir _) => Path.join target ((Path.baseName? source).getD source)
  | _ => target

/-- What a file or directory is like when it has just been copied. -/
def copied (now : Nat) : Node → Node
  | .file data _ => .file data now
  | n => n

/-- The tree with a copy of something. -/
def copyTo (deep : Bool) (source target : String) (t : Tree) (cwd : List String) (now : Nat) :
    Except FileFault Tree := do
  let place := destination t cwd source target
  match ← t.resolve cwd source with
  | (_, .file data _) => t.write cwd place data now
  | (_, n) =>
    if !deep then throw .isDirectory
    let (dir, name) ← t.parentOf cwd place
    match t.put? (some (copied now n)) (dir ++ [name]) with
    | some t => pure t
    | none => throw .notFound

def cp : Tool := fun words => do
  let (options, paths) := optionsOf words
  let deep := options.any (['r', 'R', 'a'].contains ·)
  match paths.reverse with
  | target :: source :: more =>
    forEach (source :: more).reverse fun path => do
      let (tree, cwd) ← Act.ask .look
      match tree.resolve cwd path with
      | .error e => do
        say "cp" ("cannot stat " ++ shown path ++ ": " ++ e.reason)
        pure false
      | .ok (_, n) =>
        if n.isDir && !deep then do
          say "cp" ("-r not specified; omitting directory " ++ shown path)
          pure false
        else altering "cp" ("cannot create regular file " ++ shown target) (copyTo deep path target)
  | _ => lacking "cp" "file operand"

def mv : Tool := fun words => do
  let (_, paths) := optionsOf words
  match paths.reverse with
  | target :: source :: more =>
    forEach (source :: more).reverse fun path => do
      let (tree, cwd) ← Act.ask .look
      match tree.resolve cwd path false with
      | .error e => do
        say "mv" ("cannot stat " ++ shown path ++ ": " ++ e.reason)
        pure false
      | .ok _ => altering "mv" ("cannot move " ++ shown path ++ " to " ++ shown target) fun t cwd _ =>
          t.rename cwd path (destination t cwd path target)
  | _ => lacking "mv" "file operand"

def ln : Tool := fun words => do
  let (options, paths) := optionsOf words
  match paths with
  | [source, target] =>
    forEach [target] fun target => altering "ln" ("failed to create link " ++ shown target) fun t cwd now => do
      let place := destination t cwd source target
      let t := if options.contains 'f' then (match t.remove cwd place with | .ok t => t | .error _ => t) else t
      if options.contains 's' then t.makeLink cwd place source now
      else copyTo false source place t cwd now
  | _ => lacking "ln" "file operand"

def basename : Tool := fun words => do
  let path := words.headD ""
  let name := (Path.components path).getLastD path
  let ending := words.getD 1 ""
  let bare := if ending ≠ name && name.endsWith ending then (name.dropEnd ending.length).toString else name
  Act.print 1 (bare ++ "\n")
  pure 0

def dirname : Tool := fun words => do
  forEach words fun path => do
    let names := (Path.components path).dropLast
    let top := if Path.isAbsolute path then "/" else "."
    Act.print 1 ((if names.isEmpty then top else Path.ofComponents names) ++ "\n")
    pure true

def pwd : Tool := fun _ => do
  let (_, cwd) ← Act.ask .look
  Act.print 1 (Path.ofComponents ("/" :: cwd) ++ "\n")
  pure 0

end ScriptRunner.Tools
