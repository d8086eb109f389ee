import ScriptRunner.Machine.Program

/-!
# Shell commands

The words of a script, with what is quoted in them and what stands for something else, and the commands that they are
put together to.
-/

namespace ScriptRunner.Shell

mutual

/-- A piece of a word. -/
inductive Segment where
  | char (c : Char) (quoted : Bool)
  /-- Quotes: they make a field even of nothing. -/
  | quotes
  | parameter (name : String) (use : Use) (quoted : Bool)
  /-- What a command writes. -/
  | output (script : Command) (quoted : Bool)
  | arithmetic (body : List Segment) (quoted : Bool)

/-- How the value of a parameter is used. -/
inductive Use where
  | value
  | length
  /-- Another word stands in for a parameter that is unset, or, with `orEmpty`, empty. -/
  | default (orEmpty : Bool) (word : List Segment)
  | assign (orEmpty : Bool) (word : List Segment)
  | demand (orEmpty : Bool) (word : List Segment)
  | alternative (orEmpty : Bool) (word : List Segment)
  | trimStart (longest : Bool) (word : List Segment)
  | trimEnd (longest : Bool) (word : List Segment)
  /-- In no way that there is. -/
  | malformed

/-- What a descriptor is made to be. -/
inductive Redirect where
  | file (fd : Nat) (mode : OpenMode) (path : List Segment)
  | copy (fd : Nat) (source : List Segment)
  | here (fd : Nat) (body : List Segment)

inductive Command where
  | nothing
  | simple (assignments : List (String × List Segment)) (words : List (List Segment)) (redirects : List Redirect)
      (line : Nat)
  | pipeline (parts : List Command)
  | not (c : Command)
  | both (first second : Command)
  | either (first second : Command)
  | sequence (first second : Command)
  | background (c : Command)
  | subshell (c : Command) (redirects : List Redirect)
  | group (c : Command) (redirects : List Redirect)
  | branch (condition yes no : Command) (redirects : List Redirect)
  /-- Repeats its body while the condition has the given truth. -/
  | loop (truth : Bool) (condition body : Command) (redirects : List Redirect)
  /-- Repeats its body for each word, or for each argument. -/
  | each (name : String) (words : Option (List (List Segment))) (body : Command) (redirects : List Redirect)
  | select (word : List Segment) (arms : List (List (List Segment) × Command)) (redirects : List Redirect)
  | define (name : String) (body : Command)

end

instance : Inhabited Command := ⟨.nothing⟩

/-- The commands of a shell that no function can take the name of. -/
def specialNames : List String :=
  [":", ".", "break", "continue", "eval", "exec", "exit", "export", "local", "readonly", "return", "set", "shift",
    "times", "trap", "unset"]

/-- A piece of a word. -/
abbrev Word := List Segment

namespace Word

/-- The text of a word without anything quoted or standing for something else. -/
def bare? (w : Word) : Option String :=
  (w.mapM fun s => match s with | Segment.char c false => some c | _ => none).map String.ofList

end Word

def isNameStart (c : Char) : Bool := c.isAlpha || c = '_'

def isNameChar (c : Char) : Bool := c.isAlphanum || c = '_'

/-- A name of a variable. -/
def isName (s : List Char) : Bool :=
  match s with
  | [] => false
  | c :: r => isNameStart c && r.all isNameChar

end ScriptRunner.Shell
