import ScriptRunner.Glob.Matching

/-!
# Sets of globs

A set matches a path when one of its globs does.  One rule is about sets alone: a path that ends in a point has no
base name, and a glob that is settled by the base name of a path, or by its extension, then does not match.
-/

namespace ScriptRunner.Glob

/-- The character of a literal token. -/
def Token.char? : Token → Option Char
  | .literal c => some c
  | _ => none

/-- A literal text, without a slash. -/
private def isPlainName (ts : List Token) : Bool :=
  !ts.isEmpty && ts.all fun t => t.char?.isSome && t.char? != some '/'

/-- The tokens that follow a leading run of directories. -/
private def afterDirs : List Token → List Token
  | .leadingDirs :: ts => ts
  | ts => ts

/-- `*` and then an extension without a second point, in any directory. -/
private def isExtension (g : Glob) : Bool :=
  match afterDirs g.tokens with
  | .star :: .literal '.' :: ts =>
    (g.tokens.length != (afterDirs g.tokens).length || !g.withinSegment) &&
      ts.all fun t => t.char?.isSome && t.char? != some '/' && t.char? != some '.'
  | _ => false

/-- A literal end after at most one star and one run of directories. -/
private def isLiteralEnd (g : Glob) : Bool :=
  match afterDirs g.tokens with
  | .star :: ts => !g.withinSegment && !ts.isEmpty && ts.all (·.char?.isSome)
  | ts => !ts.isEmpty && ts.all (·.char?.isSome)

/-- The tokens end in a literal extension. -/
private def endsInExtension (ts : List Token) : Bool :=
  let tail := (ts.reverse.takeWhile fun t => t.char?.isSome).filterMap Token.char?
  match tail.dropWhile fun c => c != '.' && c != '/' with
  | '.' :: _ => true
  | _ => false

/-- The glob is settled by the base name or the extension of a path. -/
def needsBaseName (g : Glob) : Bool :=
  match g.tokens with
  | .leadingDirs :: ts =>
    isPlainName ts || isExtension g || (!isLiteralEnd g && endsInExtension g.tokens)
  | ts =>
    !ts.all (·.char?.isSome) && (isExtension g || (!isLiteralEnd g && endsInExtension g.tokens))

private theorem all_eq_false_of_last {ts : List Token} {p : Token → Bool} (h : ts.getLast? = some .trailingDirs)
    (hp : p .trailingDirs = false) : ts.all p = false :=
  List.all_eq_false.2 ⟨.trailingDirs, List.mem_of_getLast? h, by simp [hp]⟩

/-- No base name settles a glob that ends in everything below a directory. -/
theorem needsBaseName_eq_false {g : Glob} (h : g.tokens.getLast? = some .trailingDirs) : g.needsBaseName = false := by
  have hrest : ∀ {t us}, g.tokens = t :: us → t ≠ .trailingDirs → us.getLast? = some .trailingDirs := by
    intro t us hu ht
    rw [hu] at h
    cases us with
    | nil => exact absurd (Option.some.inj h) ht
    | cons u us => rwa [List.getLast?_cons_cons] at h
  have hdirs : (afterDirs g.tokens).getLast? = some .trailingDirs := by
    unfold afterDirs
    split
    · rename_i hu
      exact hrest hu nofun
    · exact h
  have hextension : isExtension g = false := by
    unfold isExtension
    split
    · rename_i ts hts
      rw [hts, List.getLast?_cons_cons] at hdirs
      cases ts with
      | nil => simp at hdirs
      | cons t ts =>
        rw [List.getLast?_cons_cons] at hdirs
        rw [all_eq_false_of_last hdirs rfl, Bool.and_false]
    · rfl
  have hends : endsInExtension g.tokens = false := by
    obtain ⟨ts, hts⟩ := List.getLast?_eq_some_iff.1 h
    simp [endsInExtension, hts, Token.char?]
  unfold needsBaseName
  split
  · rename_i ts hts
    simp [isPlainName, all_eq_false_of_last (hrest hts nofun), Token.char?, hextension, hends]
  · simp [hextension, hends]

/-- One glob of a set matches a path. -/
def settles (g : Glob) (path : List UInt8) : Bool :=
  g.matchesBytes path && !(path.getLast? == some 0x2e && g.needsBaseName)

/-- A set of globs matches a path. -/
def anyMatches (globs : List Glob) (path : String) : Bool :=
  let bytes := Text.encode path
  globs.any (·.settles bytes)

end ScriptRunner.Glob
