import ScriptRunner.Glob.Basic
import ScriptRunner.Text.Utf8

/-!
# What a glob matches

A glob matches a whole path, byte by byte.  `matchTokens` reads tokens from the left and hands the rest of the path to
a continuation, so that a star or an alternative may take any part that lets the rest match.
-/

namespace ScriptRunner.Glob

/-- The rest of a path, accepted or not. -/
abbrev Rest := List UInt8 → Bool

/-- The byte of the slash. -/
def slash : UInt8 := 0x2f

/-- Any number of bytes that satisfy `p`, then the rest. -/
def anyRun (p : UInt8 → Bool) (k : Rest) : Rest
  | [] => k []
  | b :: bs => k (b :: bs) || (p b && anyRun p k bs)

/-- One given text, then the rest. -/
def exactly (k : Rest) : List UInt8 → Rest
  | [], bs => k bs
  | _ :: _, [] => false
  | c :: cs, b :: bs => c == b && exactly k cs bs

/-- One byte that satisfies `p`, then the rest. -/
def oneByte (p : UInt8 → Bool) (k : Rest) : Rest
  | [] => false
  | b :: bs => p b && k bs

/-- The bytes of one character. -/
def charBytes (c : Char) : List UInt8 := Text.encode c.toString

/-- The bytes that the ranges of a class hold.  A character of several bytes stands for each of them, and in a
range only its byte next to the dash bounds the range. -/
def rangeHolds (b : UInt8) (r : Char × Char) : Bool :=
  let first := charBytes r.1
  let last := charBytes r.2
  if r.1 = r.2 then first.contains b
  else first.dropLast.contains b || (last.drop 1).contains b ||
    (first.getLastD 0 ≤ b && b ≤ last.headD 0)

mutual

/-- A token that stands for no text at all: alternatives without one that has a text. -/
def Token.isSilent : Token → Bool
  | .alternatives branches => silentBranches branches
  | _ => false

/-- Only silent tokens. -/
def silentTokens : List Token → Bool
  | [] => true
  | t :: ts => t.isSilent && silentTokens ts

/-- Only branches of silent tokens. -/
def silentBranches : List (List Token) → Bool
  | [] => true
  | ts :: more => silentTokens ts && silentBranches more

end

mutual

/-- One token at the front, then the rest. -/
def matchToken (free : UInt8 → Bool) (k : Rest) : Token → Rest
  | .literal c => exactly k (charBytes c)
  | .any => oneByte free k
  | .star => anyRun free k
  | .leadingDirs => fun bs => k bs || exactly k [slash] bs || anyRun (fun _ => true) (exactly k [slash]) bs
  | .trailingDirs => exactly (anyRun (fun _ => true) k) [slash]
  | .innerDirs => fun bs =>
    exactly k [slash] bs || exactly (anyRun (fun _ => true) (exactly k [slash])) [slash] bs
  | .choice negated ranges => oneByte (fun b => (ranges.any (rangeHolds b)) != negated) k
  | .alternatives branches => if silentBranches branches then k else matchBranches free k branches

/-- The tokens one after another, then the rest. -/
def matchTokens (free : UInt8 → Bool) (k : Rest) : List Token → Rest
  | [] => k
  | t :: ts => matchToken free (matchTokens free k ts) t

/-- One of the branches that are not silent, then the rest. -/
def matchBranches (free : UInt8 → Bool) (k : Rest) : List (List Token) → Rest
  | [] => fun _ => false
  | ts :: more => fun bs => (!silentTokens ts && matchTokens free k ts bs) || matchBranches free k more bs

end

/-- The bytes that `?` and `*` stand for. -/
def freeByte (g : Glob) (b : UInt8) : Bool := !g.withinSegment || b != slash

/-- The end of the path. -/
def atEnd (bs : List UInt8) : Bool := bs.isEmpty

/-- The glob matches these bytes, read as a whole.  A glob of two stars alone matches every path. -/
def matchesBytes (g : Glob) (bs : List UInt8) : Bool :=
  match g.tokens with
  | [.leadingDirs] => true
  | ts => matchTokens g.freeByte atEnd ts bs

end ScriptRunner.Glob
