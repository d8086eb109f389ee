import ScriptRunner.Repository.Basic

/-!
# Differences between listings

The paths at which two listings differ.  A file that is gone and a file that is new make a renaming when they are alike
enough; of a renaming only the new path counts.  Equal files are paired first, then files that are the only ones of
their last name, then the rest, the most alike first.
-/

namespace ScriptRunner.Difference

/-- A file and its path. -/
abbrev Item := List String × Content

/-- The text of a path, which orders the files. -/
def pathText (path : List String) : String := "/".intercalate path

def sameName (a b : Item) : Bool := a.1.getLast? = b.1.getLast?

/-! ### Likeness -/

/-- How alike two equal files are. -/
def fullScore : Nat := 60000

/-- The least likeness of a renaming. -/
def leastScore : Nat := 30000

/-- The least likeness of files that are the only ones of their last name. -/
def leastNamedScore : Nat := 45000

/-- The pieces of a file: its lines, cut after 64 bytes.  A carriage return before a line feed does not count in a
text. -/
def pieces (isText : Bool) (current : List UInt8) : List UInt8 → List (List UInt8)
  | [] => if current.isEmpty then [] else [current.reverse]
  | 13 :: 10 :: rest => 
    if isText then (10 :: current).reverse :: pieces isText [] rest
    else if current.length = 63 then (13 :: current).reverse :: pieces isText [] (10 :: rest)
    else pieces isText (13 :: current) (10 :: rest)
  | b :: rest =>
    if b = 10 || current.length = 63 then (b :: current).reverse :: pieces isText [] rest
    else pieces isText (b :: current) rest

/-- The bytes have no NUL near their start. -/
def isText (data : List UInt8) : Bool := !(data.take 8000).contains 0

/-- How many bytes of the first pieces are among the second ones as well. -/
def sharedBytes : List (List UInt8) → List (List UInt8) → Nat
  | [], _ => 0
  | p :: ps, qs => if qs.contains p then p.length + sharedBytes ps (qs.erase p) else sharedBytes ps qs

/-- The likeness of two files, or 0 if their lengths alone keep it below `least`. -/
def score (least : Nat) (old new : Content) : Nat :=
  match old, new with
  | .file a, .file b =>
    let longer := max a.length b.length
    let shorter := min a.length b.length
    if longer * (fullScore - least) < (longer - shorter) * fullScore then 0
    else sharedBytes (pieces (isText a) [] a) (pieces (isText b) [] b) * fullScore / longer
  | _, _ => 0

/-! ### Renamings -/

/-- What is left to pair, and the paths that have been renamed. -/
structure Pairing where
  gone : List Item
  new : List Item
  renamed : List (List String) := []

def Pairing.pair (p : Pairing) (old new : Item) : Pairing :=
  ⟨p.gone.filter (·.1 ≠ old.1), p.new.filter (·.1 ≠ new.1), old.1 :: p.renamed⟩

/-- Pairs equal files, if possible with files of the same last name. -/
def Pairing.equal (p : Pairing) : Pairing :=
  p.new.foldl (fun p n =>
    let equals := p.gone.filter fun g => g.2 = n.2
    match (equals.find? (sameName n)).or equals.head? with
    | some g => p.pair g n
    | none => p) p

/-- Pairs files that are the only ones of their last name. -/
def Pairing.named (p : Pairing) : Pairing :=
  p.gone.foldl (fun q g =>
    match p.gone.filter (sameName g), p.new.filter (sameName g) with
    | [_], [n] => if leastNamedScore ≤ score leastNamedScore g.2 n.2 then q.pair g n else q
    | _, _ => q) p

/-- Pairs the rest, the most alike first. -/
def Pairing.alike (p : Pairing) : Pairing :=
  let rank (e : Nat × Bool × Item × Item) : Nat := 2 * e.1 + if e.2.1 then 1 else 0
  let pairs := p.new.flatMap fun n => p.gone.map fun g => (score leastScore g.2 n.2, sameName g n, g, n)
  let order := (pairs.filter fun e => leastScore ≤ e.1).mergeSort fun a b => rank b ≤ rank a
  order.foldl (fun p e =>
    let (_, _, g, n) := e
    if p.gone.any (·.1 = g.1) && p.new.any (·.1 = n.1) then p.pair g n else p) p

/-- The old paths of the renamings among files that are gone and files that are new. -/
def renamedPaths (gone new : List Item) : List (List String) :=
  let sorted (items : List Item) := items.mergeSort fun a b => pathText a.1 ≤ pathText b.1
  (Pairing.alike (Pairing.named (Pairing.equal ⟨sorted gone, sorted new, []⟩))).renamed

/-- The paths at which two listings differ. -/
def paths (old new : Listing) : List (List String) :=
  let gone := old.entries.filter fun e => !new.contains e.1
  let added := new.entries.filter fun e => !old.contains e.1
  let modified := new.entries.filter fun e => old.contains e.1 && old.get? e.1 ≠ some e.2
  let renamed := renamedPaths gone added
  (modified ++ added).map (·.1) ++ (gone.map (·.1)).filter fun p => !renamed.contains p

end ScriptRunner.Difference
