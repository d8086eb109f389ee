/-!
# Content digests

The 256-bit BLAKE3 digest of some bytes, in hexadecimal.  The bytes are cut into chunks and the chunks into blocks; the
blocks of a chunk are chained, and the chunks are the leaves of a binary tree, in which neighbours are joined level by
level and an odd one out moves up.
-/

namespace ScriptRunner.Digest

/-- Eight words, from block to block and from children to parent. -/
abbrev Words := Array UInt32

def initial : Words :=
  #[0x6a09e667, 0xbb67ae85, 0x3c6ef372, 0xa54ff53a, 0x510e527f, 0x9b05688c, 0x1f83d9ab, 0x5be0cd19]

/-- Where the words of a block go between two rounds. -/
def permutation : Array Nat := #[2, 6, 3, 10, 7, 0, 4, 13, 1, 11, 12, 5, 9, 14, 15, 8]

def startFlag : UInt32 := 1

def endFlag : UInt32 := 2

def parentFlag : UInt32 := 4

def topFlag : UInt32 := 8

/-- Bytes in a block. -/
def blockSize : Nat := 64

/-- Bytes in a chunk. -/
def chunkSize : Nat := 1024

def rotate (x : UInt32) (n : UInt32) : UInt32 := (x >>> n) ||| (x <<< (32 - n))

/-- Mixes two words of a block into four words of the state. -/
def mix (s : Words) (a b c d : Nat) (x y : UInt32) : Words :=
  let va := s.getD a 0 + s.getD b 0 + x
  let vd := rotate (s.getD d 0 ^^^ va) 16
  let vc := s.getD c 0 + vd
  let vb := rotate (s.getD b 0 ^^^ vc) 12
  let va := va + vb + y
  let vd := rotate (vd ^^^ va) 8
  let vc := vc + vd
  let vb := rotate (vb ^^^ vc) 7
  (((s.setIfInBounds a va).setIfInBounds b vb).setIfInBounds c vc).setIfInBounds d vd

/-- The words that each step of a round mixes: first columns, then diagonals. -/
def steps : List (Nat × Nat × Nat × Nat) :=
  [(0, 4, 8, 12), (1, 5, 9, 13), (2, 6, 10, 14), (3, 7, 11, 15),
    (0, 5, 10, 15), (1, 6, 11, 12), (2, 7, 8, 13), (3, 4, 9, 14)]

def round (s m : Words) : Words :=
  (steps.zipIdx).foldl (fun s e =>
    let (a, b, c, d) := e.1
    mix s a b c d (m.getD (2 * e.2) 0) (m.getD (2 * e.2 + 1) 0)) s

def permute (m : Words) : Words := permutation.map fun i => m.getD i 0

/-- Seven rounds. -/
def rounds : Nat → Words → Words → Words
  | 0, s, _ => s
  | n + 1, s, m => rounds n (round s m) (permute m)

/-- A block that waits to be compressed. -/
structure Block where
  chain : Words
  words : Words
  counter : Nat
  length : Nat
  flags : UInt32

/-- The eight words of a block, with more flags. -/
def Block.compress (b : Block) (flags : UInt32) : Words :=
  let s := b.chain ++ initial.take 4 ++
    #[b.counter.toUInt32, (b.counter >>> 32).toUInt32, b.length.toUInt32, b.flags ||| flags]
  let s := rounds 7 s b.words
  (Array.range 8).map fun i => s.getD i 0 ^^^ s.getD (i + 8) 0

/-- The words of some bytes, four bytes to a word and zeros at the end. -/
def wordsOf (bytes : List UInt8) : Words :=
  let rec go : Nat → List UInt8 → List UInt32
    | 0, _ => []
    | n + 1, bs =>
      let byte (i : Nat) : UInt32 := (bs.getD i 0).toUInt32
      (byte 0 ||| (byte 1 <<< 8) ||| (byte 2 <<< 16) ||| (byte 3 <<< 24)) :: go n (bs.drop 4)
  (go 16 bytes).toArray

/-- The pieces of a list, of `n` elements each but the last; one empty piece for the empty list. -/
def pieces {α : Type} (n : Nat) (xs : List α) : List (List α) :=
  let rec go : Nat → List α → List (List α)
    | 0, _ => []
    | fuel + 1, ys => if ys.length ≤ n then [ys] else ys.take n :: go fuel (ys.drop n)
  go (xs.length / n + 1) xs

/-- The last block of a chunk, with the others compressed. -/
def chunkBlock (counter : Nat) (bytes : List UInt8) : Block :=
  let rec go (chain : Words) (flags : UInt32) : List (List UInt8) → Block
    | [] => ⟨chain, wordsOf [], counter, 0, flags ||| endFlag⟩
    | [last] => ⟨chain, wordsOf last, counter, last.length, flags ||| endFlag⟩
    | piece :: rest => go ((Block.mk chain (wordsOf piece) counter piece.length flags).compress 0) 0 rest
  go initial startFlag (pieces blockSize bytes)

def parentBlock (left right : Block) : Block :=
  ⟨initial, left.compress 0 ++ right.compress 0, 0, blockSize, parentFlag⟩

/-- One level up: neighbours are joined. -/
def joined : List Block → List Block
  | a :: b :: rest => parentBlock a b :: joined rest
  | rest => rest

theorem joined_length_le (bs : List Block) : (joined bs).length ≤ bs.length := by
  fun_induction joined bs with
  | case1 a b rest ih => simp only [List.length_cons]; omega
  | case2 => simp

/-- The block at the top of the tree. -/
def top (b : Block) (bs : List Block) : Block :=
  match bs with
  | [] => b
  | c :: rest => top (parentBlock b c) (joined rest)
termination_by bs.length
decreasing_by
  have := joined_length_le rest
  simp only [List.length_cons]
  omega

/-- The two digits of a byte. -/
def hexByte (b : UInt8) : List Char :=
  let digits := Nat.toDigits 16 b.toNat
  if digits.length = 1 then '0' :: digits else digits

/-- The bytes of a word, the lowest first. -/
def bytesOf (w : UInt32) : List UInt8 := [w.toUInt8, (w >>> 8).toUInt8, (w >>> 16).toUInt8, (w >>> 24).toUInt8]

/-- The digest of some bytes. -/
def hex (bytes : List UInt8) : String :=
  let blocks := ((pieces chunkSize bytes).zipIdx).map fun e => chunkBlock e.2 e.1
  match blocks with
  | [] => ""
  | b :: bs => String.ofList (((top b bs).compress topFlag).toList.flatMap fun w => (bytesOf w).flatMap hexByte)

end ScriptRunner.Digest
