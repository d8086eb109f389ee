import ScriptRunner.Duration.Basic
import ScriptRunner.Text.Blank
import ScriptRunner.Text.Lowercase

/-!
# Reading durations

A duration is written as a run of digits and a unit: `ms`, `s`, `m` or `h`, in either case.  Blanks may stand around
the text and before the unit.  `Duration.parse` also says what is wrong with any other text.
-/

namespace ScriptRunner

/-- Why a text is no duration. -/
inductive DurationError where
  | empty
  /-- Digits only. -/
  | missingUnit (text : String)
  /-- The text starts with something other than a digit. -/
  | missingNumber
  /-- The digits do not fit in 64 bits. -/
  | numberTooLarge (digits : String)
  | unknownUnit (unit : String)
  /-- The seconds do not fit in 64 bits. -/
  | tooLarge (text : String)
  deriving DecidableEq, Repr

def DurationError.message : DurationError → String
  | empty => "empty duration string"
  | missingUnit text => s!"duration '{text}' is missing a unit suffix (ms, s, m, h)"
  | missingNumber => "invalid duration number '': cannot parse integer from empty string"
  | numberTooLarge digits => s!"invalid duration number '{digits}': number too large to fit in target type"
  | unknownUnit unit => s!"unsupported duration unit '{unit}'; expected ms, s, m, or h"
  | tooLarge text => s!"duration '{text}' is too large"

namespace Duration

/-- The largest number of a unit, and the largest number of seconds. -/
def wordLimit : Nat := Nat.pow 2 64

/-- The value of a run of decimal digits. -/
def digitsValue (digits : List Char) : Nat :=
  digits.foldl (fun n c => 10 * n + (c.toNat - '0'.toNat)) 0

/-- A unit of time: a millisecond, or a number of seconds. -/
inductive Unit where
  | millis
  | seconds (each : Nat)
  deriving DecidableEq, Repr

/-- The unit of a lower-case name. -/
def Unit.ofName? : List Char → Option Unit
  | ['m', 's'] => some .millis
  | ['s'] => some (.seconds 1)
  | ['m'] => some (.seconds 60)
  | ['h'] => some (.seconds 3600)
  | _ => none

/-- So many of a unit, if the seconds fit in 64 bits. -/
def Unit.times? (unit : Unit) (n : Nat) : Option Duration :=
  match unit with
  | millis => some (ofMillis n)
  | seconds each => if n * each < wordLimit then some (ofSeconds (n * each)) else none

/-- Reads a duration, characters in. -/
def parseChars (text : List Char) : Except DurationError Duration :=
  let body := Text.trim text
  let digits := body.takeWhile Char.isDigit
  let rest := body.dropWhile Char.isDigit
  let name := Text.lower (Text.trim rest)
  if body.isEmpty then .error .empty
  else if rest.isEmpty then .error (.missingUnit (String.ofList body))
  else if digits.isEmpty then .error .missingNumber
  else if wordLimit ≤ digitsValue digits then .error (.numberTooLarge (String.ofList digits))
  else match Unit.ofName? name with
    | none => .error (.unknownUnit (String.ofList name))
    | some unit =>
      match unit.times? (digitsValue digits) with
      | none => .error (.tooLarge (String.ofList body))
      | some d => .ok d

/-- Reads a duration. -/
def parse (text : String) : Except DurationError Duration := parseChars text.toList

end Duration

end ScriptRunner
