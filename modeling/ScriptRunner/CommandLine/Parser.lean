import ScriptRunner.CommandLine.Arguments

/-!
# Reading a command line

The words of a command line are read from left to right.  The first word that is no option is the script.  From the
script on, a word that only looks like an option belongs to the script's arguments, and so does every word after the
first of them; two dashes alone also end the options.  The value of an option that stands in a word of its own is
looked at only when the next option or positional word is complete, which decides between two faults.
-/

namespace ScriptRunner.CommandLine

/-- The state between two words. -/
structure Reader where
  arguments : Arguments := {}
  /-- The options that have been set. -/
  given : List Opt := []
  /-- An option whose value has not been looked at, or has not come. -/
  pending : Option (Setting × Option String) := none
  /-- Options are over. -/
  trailing : Bool := false

/-- Sets an option to a value, unless it was set before. -/
def Reader.set (r : Reader) (setting : Setting) (value : String) : Except ArgumentError Reader :=
  if r.given.contains (.inr setting) then .error .argumentConflict
  else do
    let a ← setting.apply value r.arguments
    pure { r with arguments := a, given := .inr setting :: r.given }

/-- Looks at the value of the pending option. -/
def Reader.settle (r : Reader) : Except ArgumentError Reader :=
  match r.pending with
  | none => .ok r
  | some (_, none) => .error .invalidValue
  | some (setting, some value) => { r with pending := none }.set setting value

/-- Sets a flag, unless it was set before. -/
def Reader.setFlag (r : Reader) (flag : Flag) : Except ArgumentError Reader := do
  let r ← r.settle
  if r.given.contains (.inl flag) then throw .argumentConflict
  let a ← flag.apply r.arguments
  pure { r with arguments := a, given := .inl flag :: r.given }

/-- An option with the value that stands in the same word, if one does. -/
def Reader.setSetting (r : Reader) (setting : Setting) (value : Option String) : Except ArgumentError Reader := do
  let r ← r.settle
  match value with
  | some v => r.set setting v
  | none => pure { r with pending := some (setting, none) }

/-- A positional word: the script, or an argument for it. -/
def Reader.positional (r : Reader) (word : String) : Except ArgumentError Reader := do
  let r ← r.settle
  match r.arguments.script with
  | none => pure { r with arguments := { r.arguments with script := some word } }
  | some _ => pure { r with arguments := { r.arguments with args := r.arguments.args ++ [word] }, trailing := true }

/-- A word that may be the value of the pending option, and is positional otherwise. -/
def Reader.plain (r : Reader) (word : String) : Except ArgumentError Reader :=
  match r.pending with
  | some (setting, none) => .ok { r with pending := some (setting, some word) }
  | _ => r.positional word

/-- The letters of a word with one dash.  A letter with a value takes the rest of the word. -/
def Reader.letters (r : Reader) : List Char → Except ArgumentError Reader
  | [] => .ok r
  | c :: rest =>
    match ofLetter? c with
    | none => .error .unknownArgument
    | some (.inl flag) => do
      let r ← r.setFlag flag
      r.letters rest
    | some (.inr setting) =>
      match rest with
      | [] => r.setSetting setting none
      | '=' :: value => r.setSetting setting (some (String.ofList value))
      | value => r.setSetting setting (some (String.ofList value))

/-- The name and the value of a word with two dashes, without the dashes. -/
private def cutAtEquals (s : List Char) : String × Option String :=
  (String.ofList (s.takeWhile (· ≠ '=')),
    match s.dropWhile (· ≠ '=') with
    | [] => none
    | _ :: value => some (String.ofList value))

/-- Takes one word. -/
def Reader.word (r : Reader) (word : String) : Except ArgumentError Reader :=
  let inScript := r.arguments.script.isSome
  if r.trailing then r.positional word
  else match word.toList with
    | ['-', '-'] => .ok { r with trailing := true }
    | '-' :: '-' :: long =>
      let (name, value) := cutAtEquals long
      match ofLongName? name with
      | some (.inl flag) => if value.isSome then .error .tooManyValues else r.setFlag flag
      | some (.inr setting) => r.setSetting setting value
      | none => if inScript then r.plain word else .error .unknownArgument
    | '-' :: c :: rest =>
      if inScript && (c :: rest).any fun c => (ofLetter? c).isNone then r.plain word
      else r.letters (c :: rest)
    | _ => r.plain word

/-- Reads a command line, the program's name left out. -/
def parse (words : List String) : Except ArgumentError Arguments := do
  let r ← words.foldlM Reader.word {}
  let r ← r.settle
  if r.arguments.script.isNone && !r.arguments.listFilters then throw .missingRequiredArgument
  pure r.arguments

end ScriptRunner.CommandLine
