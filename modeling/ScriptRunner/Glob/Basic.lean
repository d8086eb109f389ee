/-!
# Globs

A glob is a list of tokens over path texts.  `?` stands for one byte, `*` for any bytes, `**` between slashes for any
run of directories, brackets for a class of bytes and braces for alternatives.  The reader is in `Glob.Parser`, the
meaning in `Glob.Matching`.
-/

namespace ScriptRunner

namespace Glob

/-- One token of a glob. -/
inductive Token where
  | literal (c : Char)
  /-- `?`: one byte. -/
  | any
  /-- `*`: any bytes. -/
  | star
  /-- `**` and a slash at the start: any directories, or none. -/
  | leadingDirs
  /-- A slash and `**` at the end: everything below. -/
  | trailingDirs
  /-- `**` between two slashes: any directories, or none. -/
  | innerDirs
  /-- A class of characters in brackets. -/
  | choice (negated : Bool) (ranges : List (Char × Char))
  /-- Alternatives in braces. -/
  | alternatives (branches : List (List Token))
  deriving Repr, Inhabited

/-- What makes a text no glob. -/
inductive Fault where
  | unclosedClass
  | invalidRange (first last : Char)
  | unopenedAlternatives
  | unclosedAlternatives
  | danglingEscape
  deriving DecidableEq, Repr

def Fault.message : Fault → String
  | unclosedClass => "unclosed character class; missing ']'"
  | invalidRange first last => s!"invalid range; '{first}' > '{last}'"
  | unopenedAlternatives =>
    "unopened alternate group; missing '\x7b' (maybe escape '\x7d' with '[\x7d]'?)"
  | unclosedAlternatives =>
    "unclosed alternate group; missing '\x7d' (maybe escape '\x7b' with '[\x7b]'?)"
  | danglingEscape => "dangling '\\'"

/-- A fault and the glob that has it. -/
structure Error where
  glob : String
  fault : Fault
  deriving DecidableEq, Repr

def Error.message (e : Error) : String := s!"error parsing glob '{e.glob}': {e.fault.message}"

end Glob

/-- A glob: its tokens, and whether `?` and `*` stop at a slash. -/
structure Glob where
  tokens : List Glob.Token
  withinSegment : Bool
  deriving Repr, Inhabited

end ScriptRunner
