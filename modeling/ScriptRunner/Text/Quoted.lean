import ScriptRunner.Text.Unprintable

/-!
# Quoted texts

The form in which messages show a text of unknown content: between double quotes, with a backslash before quotes
and backslashes, short escapes for the usual controls, and the code point of every other character that would not
show as itself.  `quotedChars_plain` says that nothing else is changed.
-/

namespace ScriptRunner.Text

/-- The lower-case hexadecimal digits of a code point. -/
def hexText (n : Nat) : List Char := Nat.toDigits 16 n

/-- How one character is written between double quotes. -/
def quotedChar (c : Char) : List Char :=
  match c with
  | '\x00' => ['\\', '0']
  | '\t' => ['\\', 't']
  | '\n' => ['\\', 'n']
  | '\r' => ['\\', 'r']
  | '"' => ['\\', '"']
  | '\\' => ['\\', '\\']
  | c =>
    if isExtending c || isUnprintable c then ['\\', 'u', '\x7b'] ++ hexText c.toNat ++ ['\x7d']
    else [c]

/-- The text between double quotes. -/
def quotedChars (s : List Char) : List Char := '"' :: s.flatMap quotedChar ++ ['"']

/-- `quotedChars` on strings. -/
def quoted (s : String) : String := String.ofList (quotedChars s.toList)

/-- A list of quoted texts between brackets. -/
def quotedList (ss : List String) : String := "[" ++ ", ".intercalate (ss.map quoted) ++ "]"

/-- `None`, or `Some` of the text. -/
def optionText (s : Option String) : String :=
  match s with
  | none => "None"
  | some s => "Some(" ++ s ++ ")"

theorem quotedChars_plain {s : List Char} (h : ∀ c ∈ s, quotedChar c = [c]) :
    quotedChars s = '"' :: s ++ ['"'] := by
  have e : s.flatMap quotedChar = s := by
    induction s with
    | nil => rfl
    | cons c r ih =>
      rw [List.flatMap_cons, h c (by simp), ih fun d hd => h d (by simp [hd])]
      rfl
  rw [quotedChars, e]

end ScriptRunner.Text
