import ScriptRunner.Files.Access
import ScriptRunner.Shell.Formatted

/-!
# Conditions

Tests of texts, numbers and files, as a script writes them in a list of words.
-/

namespace ScriptRunner.Shell

namespace Condition

/-- The files that a condition is about. -/
structure Scene where
  tree : Tree
  cwd : List String

def Scene.node? (scene : Scene) (path : String) (follow : Bool := true) : Option Node :=
  match scene.tree.resolve scene.cwd path follow with
  | .ok (_, n) => some n
  | .error _ => none

def isUnary (op : String) : Bool :=
  ["-n", "-z", "-e", "-f", "-d", "-r", "-w", "-x", "-s", "-h", "-L", "-p", "-S", "-b", "-c", "-t"].contains op

def isBinary (op : String) : Bool :=
  ["=", "==", "!=", "<", ">", "-eq", "-ne", "-lt", "-le", "-gt", "-ge", "-nt", "-ot", "-ef"].contains op

def unary (scene : Scene) (op word : String) : Bool :=
  let node := scene.node? word
  let isFile := (node.map (·.isFile)).getD false
  match op with
  | "-n" => !word.isEmpty
  | "-z" => word.isEmpty
  | "-e" => node.isSome
  | "-r" => node.isSome
  | "-w" => node.isSome
  | "-f" => isFile
  | "-d" => (node.map (·.isDir)).getD false
  | "-x" => (node.map (·.isDir)).getD false
  | "-s" => match node with
    | some (.file data _) => !data.isEmpty
    | some (.dir _) => true
    | _ => false
  | "-h" => ((scene.node? word false).map (·.isLink)).getD false
  | "-L" => ((scene.node? word false).map (·.isLink)).getD false
  | "-c" => match node with
    | some (.device _) => true
    | _ => false
  | _ => false

def number (text : String) : Except String Int :=
  let s := text.toList.dropWhile (· = ' ')
  let trimmed := String.ofList (s.reverse.dropWhile (· = ' ')).reverse
  let body := match trimmed.toList with
    | '-' :: r => r
    | '+' :: r => r
    | r => r
  if body.isEmpty || !body.all Char.isDigit then .error ("Illegal number: " ++ text)
  else
    let n : Int := (body.foldl (fun n c => n * 10 + (c.toNat - 48)) 0 : Nat)
    .ok (if trimmed.toList.head? = some '-' then -n else n)

private def modified? (n : Option Node) : Option Nat :=
  match n with
  | some (.file _ time) => some time
  | some _ => some 0
  | none => none

def binary (scene : Scene) (left op right : String) : Except String Bool := do
  match op with
  | "=" => pure (left = right)
  | "==" => pure (left = right)
  | "!=" => pure (left ≠ right)
  | "<" => pure (left < right)
  | ">" => pure (right < left)
  | "-nt" => match modified? (scene.node? left), modified? (scene.node? right) with
    | some a, some b => pure (b < a)
    | _, _ => pure false
  | "-ot" => match modified? (scene.node? left), modified? (scene.node? right) with
    | some a, some b => pure (a < b)
    | _, _ => pure false
  | "-ef" => match scene.tree.resolve scene.cwd left, scene.tree.resolve scene.cwd right with
    | .ok (a, _), .ok (b, _) => pure (a = b)
    | _, _ => pure false
  | op =>
    let a ← number left
    let b ← number right
    match op with
    | "-eq" => pure (a = b)
    | "-ne" => pure (a ≠ b)
    | "-lt" => pure (a < b)
    | "-le" => pure (a ≤ b)
    | "-gt" => pure (a > b)
    | _ => pure (a ≥ b)

mutual

/-- Alternatives, with the words that are left. -/
def anyOf (scene : Scene) : Nat → List String → Except String (Bool × List String)
  | 0, _ => .error "unexpected operator"
  | n + 1, words => do
    let (a, rest) ← allOf scene n words
    match rest with
    | "-o" :: rest => do
      let (b, rest) ← anyOf scene n rest
      pure (a || b, rest)
    | rest => pure (a, rest)

def allOf (scene : Scene) : Nat → List String → Except String (Bool × List String)
  | 0, _ => .error "unexpected operator"
  | n + 1, words => do
    let (a, rest) ← single scene n words
    match rest with
    | "-a" :: rest => do
      let (b, rest) ← allOf scene n rest
      pure (a && b, rest)
    | rest => pure (a, rest)

def single (scene : Scene) : Nat → List String → Except String (Bool × List String)
  | 0, _ => .error "unexpected operator"
  | n + 1, words => do
    match words with
    | [] => .error "argument expected"
    | [w] => pure (!w.isEmpty, [])
    | ["(", w, ")"] => pure (!w.isEmpty, [])
    | left :: op :: right :: rest =>
      if isBinary op then return (← binary scene left op right, rest)
      else if left = "!" then do
        let (a, rest) ← single scene n (op :: right :: rest)
        pure (!a, rest)
      else if left = "(" then do
        match ← anyOf scene n (op :: right :: rest) with
        | (a, ")" :: rest) => pure (a, rest)
        | _ => .error "closing paren expected"
      else if isUnary left then pure (unary scene left op, right :: rest)
      else pure (!left.isEmpty, op :: right :: rest)
    | [op, w] =>
      if op = "!" then pure (w.isEmpty, [])
      else if isUnary op then pure (unary scene op w, [])
      else pure (!op.isEmpty, [w])

end

/-- The truth of a condition. -/
def holds (scene : Scene) (words : List String) : Except String Bool :=
  if words.isEmpty then .ok false
  else match anyOf scene (4 * words.length + 8) words with
    | .error e => .error e
    | .ok (a, []) => .ok a
    | .ok (_, rest) => .error ((words.getD (words.length - rest.length - 1) "") ++ ": unexpected operator")

end Condition

end ScriptRunner.Shell
