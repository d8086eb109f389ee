import ScriptRunner.Shell.Condition
import ScriptRunner.Shell.State

/-!
# Commands of the shell itself

The commands that work on the shell's own process: its variables, directory, traps, children and output.  Each takes
its arguments and yields a status.
-/

namespace ScriptRunner.Shell

/-- A command of the shell itself: arguments in, status out. -/
abbrev Builtin := List String → Run Nat

namespace Builtin

/-- A message, and the status that goes with it. -/
def refuse (message : String) (status : Nat := 2) : Run Nat := do
  Run.report message
  pure status

/-- Writes the output of a command. -/
def write (name : String) (data : List UInt8) : Run Nat := do
  match ← Run.ask (.write 1 data) with
  | .ok () => pure 0
  | .error _ => refuse (name ++ ": " ++ name ++ ": I/O error") 1

def echo : Builtin := fun words =>
  match words with
  | "-n" :: rest => write "echo" (Formatted.echo false rest)
  | words => write "echo" (Formatted.echo true words)

def printf : Builtin := fun words => do
  match words with
  | [] => refuse usage
  | "--" :: [] => refuse usage
  | "--" :: format :: arguments => put format arguments
  | format :: arguments =>
    match format.toList with
    | '-' :: c :: _ => refuse ("printf: Illegal option -" ++ c.toString)
    | _ => put format arguments
where
  usage : String := "printf: usage: printf format [arg ...]"
  put (format : String) (arguments : List String) : Run Nat := do
    let p := Formatted.write format arguments
    let status ← write "printf" p.bytes
    for c in p.complaints do
      Run.report ("printf: " ++ c)
    pure (if p.invalid then 2 else if p.complaints.isEmpty then status else 1)

def test (name : String) : Builtin := fun words => do
  let words? := if name = "[" then (if words.getLast? = some "]" then some words.dropLast else none) else some words
  match words? with
  | none => refuse "[: missing ]"
  | some words => do
    let (tree, cwd) ← Run.ask .look
    match Condition.holds ⟨tree, cwd⟩ words with
    | .ok true => pure 0
    | .ok false => pure 1
    | .error e => refuse (name ++ ": " ++ e)

/-- An absolute path without `.` and `..`, worked out on its names alone. -/
def plainPath (path : String) : String :=
  let names := (Path.components path).foldl (fun acc c => if c = ".." then acc.dropLast else acc ++ [c]) []
  Path.ofComponents (if names.head? = some "/" then names else "/" :: names)

/-- The directory that the shell says it is in. -/
def currentPath : Run String := do
  let (_, cwd) ← Run.ask .look
  return ((← get).value? "PWD").getD (Path.ofComponents ("/" :: cwd))

def cd : Builtin := fun words => do
  let s ← get
  let words := words.filter fun w => w ≠ "-L" && w ≠ "-P" && w ≠ "--"
  let wanted := match words.head? with
    | none => s.value? "HOME"
    | some "-" => some ((s.value? "OLDPWD").getD ".")
    | some path => some path
  match wanted with
  | none => refuse "cd: HOME not set"
  | some path => do
    let old ← currentPath
    let place := plainPath (Path.join old path)
    match ← Run.ask (.enter place) with
    | .error _ => refuse ("cd: can't cd to " ++ path)
    | .ok () => do
      modify fun s => ((s.set? "OLDPWD" old).getD s)
      modify fun s => ((s.set? "PWD" place).getD s)
      if words.head? = some "-" then write "cd" (Text.encode (place ++ "\n")) else pure 0

def pwd : Builtin := fun _ => do write "pwd" (Text.encode ((← currentPath) ++ "\n"))

/-- The options by name, with their letters; some have none. -/
def optionTable : List (String × Option Char) :=
  [("errexit", some 'e'), ("noglob", some 'f'), ("ignoreeof", some 'I'), ("interactive", some 'i'),
    ("monitor", some 'm'), ("noexec", some 'n'), ("stdin", some 's'), ("xtrace", some 'x'), ("verbose", some 'v'),
    ("vi", some 'V'), ("emacs", some 'E'), ("noclobber", some 'C'), ("allexport", some 'a'), ("notify", some 'b'),
    ("nounset", some 'u'), ("privileged", some 'p'), ("nolog", none), ("debug", none)]

/-- Turns an option on or off. -/
def setOption (letter : Char) (on : Bool) : Run Unit :=
  modify fun s =>
    let others := s.options.filter (· ≠ letter)
    { s with options := if on then others ++ [letter] else others }

/-- What is said of the options, in words or as commands. -/
def optionLines (options : List Char) (words : Bool) : List String :=
  let isOn (letter : Option Char) : Bool := letter.any options.contains
  if words then
    "Current option settings" :: optionTable.map fun e =>
      e.1 ++ "".pushn ' ' (16 - e.1.length) ++ if isOn e.2 then "on" else "off"
  else optionTable.map fun e => "set " ++ (if isOn e.2 then "-o " else "+o ") ++ e.1

/-- Turns the options of some letters on or off, up to the first that is none. -/
def setLetters (on : Bool) : List Char → Run Nat
  | [] => pure 0
  | c :: rest => do
    if optionTable.any (·.2 = some c) then do
      setOption c on
      setLetters on rest
    else refuse ("set: Illegal option " ++ (if on then "-" else "+") ++ c.toString)

/-- Reads options and arguments in the order of their words. -/
def settings : List String → Run Nat
  | [] => pure 0
  | w :: rest => do
    let setArguments (words : List String) : Run Nat := do
      modify fun s => { s with arguments := words }
      pure 0
    match w.toList with
    | ['-', '-'] => setArguments rest
    | ['-'] => if rest.isEmpty then pure 0 else setArguments rest
    | [sign, 'o'] =>
      if sign = '-' || sign = '+' then
        match rest with
        | [] => write "set" (Text.encode (String.join ((optionLines (← get).options (sign = '-')).map (· ++ "\n"))))
        | name :: rest =>
          match optionTable.lookup name with
          | some letter => do
            for c in letter do
              setOption c (sign = '-')
            settings rest
          | none => refuse ("set: Illegal option " ++ w ++ " " ++ name)
      else setArguments (w :: rest)
    | sign :: letters =>
      if sign = '-' || sign = '+' then do
        let status ← setLetters (sign = '-') letters
        if status = 0 then settings rest else pure status
      else setArguments (w :: rest)
    | [] => setArguments (w :: rest)

def set : Builtin := settings

def shift : Builtin := fun words => do
  let n := ((words.headD "1").toNat?).getD 1
  let s ← get
  if s.arguments.length < n then refuse "shift: can't shift that many"
  else do
    modify fun s => { s with arguments := s.arguments.drop n }
    pure 0

def unset : Builtin := fun words => do
  let functions := words.head? = some "-f"
  for w in words.filter (!·.startsWith "-") do
    if functions then modify fun s => { s with functions := s.functions.filter (·.1 ≠ w) }
    else if !isName w.toList then return (← refuse ("unset: " ++ w ++ ": bad variable name"))
    else if ((← get).bindings.get? w).any (·.fixed) then return (← refuse ("unset: " ++ w ++ ": is read only"))
    else modify fun s => { s with bindings := s.bindings.erase w }
  pure 0

/-- The name of an assignment or of a variable alone. -/
def nameIn (word : String) : String := String.ofList (word.toList.takeWhile (· ≠ '='))

/-- Marks variables, and sets those that come with a value. -/
def marking (command : String) (f : Variable → Variable) : Builtin := fun words => do
  for w in words.filter (!·.startsWith "-") do
    let name := nameIn w
    if !isName name.toList then return (← refuse (command ++ ": " ++ name ++ ": bad variable name"))
    if name.length < w.length then
      match (← get).set? name (String.ofList (w.toList.drop (name.length + 1))) with
      | some s => MonadState.set s
      | none => return (← refuse (command ++ ": " ++ name ++ ": is read only"))
    modify fun s => s.mark name f
  pure 0

/-- Keeps variables as they are for the end of the function. -/
def local_ : Builtin := fun words => do
  if (← get).frames.isEmpty then return (← refuse "local: not in a function")
  for w in words do
    let name := nameIn w
    modify fun s =>
      match s.frames with
      | frame :: rest => { s with frames := ((name, s.bindings.get? name) :: frame) :: rest }
      | [] => s
  marking "local" id (words.filter fun w => w.toList.contains '=')

def occasion? (text : String) : Option Occasion :=
  if text = "EXIT" || text = "0" then some .leaving else (Signal.ofText? text).map .arrival

/-- Sets the trap of an occasion, or takes it away. -/
def setTrap (o : Occasion) (action : Option String) : Run Unit := do
  modify fun s =>
    let others := s.traps.filter (·.1 ≠ o)
    { s with traps := match action with | some a => others ++ [(o, a)] | none => others }
  match o with
  | .leaving => pure ()
  | .arrival signal =>
    if !(← get).deaf.contains signal then
      Run.ask (.dispose signal
        (match action with | none => .standard | some "" => .ignored | some _ => .caught))

/-- The number and the name of an occasion. -/
def Occasion.label : Occasion → Nat × String
  | .leaving => (0, "EXIT")
  | .arrival s => (s.number, s.name)

/-- A text in single quotes, with its own single quotes in double ones. -/
def quotedChars : Nat → List Char → List Char
  | 0, _ => []
  | n + 1, s =>
    let plain := s.takeWhile (· ≠ '\'')
    let rest := s.drop plain.length
    let quotes := rest.takeWhile (· = '\'')
    let rest := rest.drop quotes.length
    let first := '\'' :: plain ++ ['\'']
    if quotes.isEmpty then first
    else first ++ '"' :: quotes ++ ['"'] ++ if rest.isEmpty then [] else quotedChars n rest

/-- A text in quotes, so that a shell reads it as it is. -/
def quoted (text : String) : String := String.ofList (quotedChars (text.length + 1) text.toList)

/-- The traps, as commands that would set them. -/
def trapLines (traps : List (Occasion × String)) : List String :=
  let entries := (traps.map fun t => (Occasion.label t.1, t.2)).mergeSort fun a b => a.1.1 ≤ b.1.1
  entries.map fun e => "trap -- " ++ quoted e.2 ++ " " ++ e.1.2

def trap : Builtin := fun words => do
  let words := if words.head? = some "--" then words.drop 1 else words
  match words with
  | [] => do write "trap" (Text.encode (String.join ((trapLines (← get).traps).map (· ++ "\n"))))
  | first :: rest => do
    let (action, occasions) :=
      if rest.isEmpty || first.toNat?.isSome then (none, words)
      else (if first = "-" then none else some first, rest)
    let mut status := 0
    for w in occasions do
      match occasion? w with
      | some o => setTrap o action
      | none => do
        Run.lift (Act.print 2 ("trap: " ++ w ++ ": bad trap\n"))
        status := 1
    return status

/-- The status of a wait that a signal has cut short. -/
def brokenStatus : Run Nat := do
  Run.collect
  return match (← get).arrived.getLast? with | some s => 128 + s.number | none => 128

/-- Waits for all children. -/
def waitAll : Nat → Run Nat
  | 0 => pure 0
  | n + 1 => do
    match ← Run.ask (.await none true) with
    | .ended _ _ => waitAll n
    | .noChild => do
      modify fun s => { s with ended := [] }
      pure 0
    | .broken => brokenStatus

def waitFor (child : Nat) : Run Nat := do
  match (← get).ended.lookup child with
  | some status => pure status
  | none =>
    match ← Run.ask (.await (some child) true) with
    | .ended _ how => do
      modify fun s => { s with ended := (child, how.status) :: s.ended }
      Run.tellEnding how
      pure how.status
    | .noChild => pure 127
    | .broken => brokenStatus

def wait : Builtin := fun words => do
  match words with
  | [] => waitAll 1000000
  | words => do
    let mut status := 0
    for w in words do
      match w.toNat? with
      | some child => status ← waitFor child
      | none => return (← refuse ((if w.startsWith "%" then "wait: No such job: " else "wait: Illegal number: ") ++ w))
    return status

/-- Whom a number of a process or, behind a dash, of a group stands for. -/
def target? (text : String) : Run (Option Target) := do
  match text.toList with
  | ['0'] => do
    let (_, group) ← Run.ask .identity
    pure (some (.group group))
  | '-' :: digits => pure ((String.ofList digits).toNat?.map Target.group)
  | digits => pure ((String.ofList digits).toNat?.map Target.process)

/-- A signal by its name or number; zero stands for none. -/
def signal? (text : String) : Option (Option Signal) :=
  if text = "0" then some none else (Signal.ofText? text).map some

/-- Sends a signal to every target that some words name. -/
def sendAll (signal : Option Signal) (words : List String) : Run Nat := do
  if words.isEmpty then
    refuse ("kill: Usage: kill [-s sigspec | -signum | -sigspec] [pid | job]... or\nkill -l [exitstatus]")
  else do
    let mut status := 0
    for w in words do
      match ← target? w with
      | none => return (← refuse ("kill: Illegal number: " ++ if w.startsWith "-" then (w.drop 1).toString else w))
      | some target =>
        if !(← Run.ask (.send target signal)) then status ← refuse "kill: No such process\n" 1
    return status

/-- Writes the name of a signal that has a number or leaves a status. -/
def nameSignal (text : String) : Run Nat :=
  match text.toNat? with
  | none => refuse ("kill: Illegal number: " ++ text)
  | some n =>
    match Signal.all.find? (·.number = if 128 < n then n - 128 else n) with
    | some s => write "kill" (Text.encode (s.name ++ "\n"))
    | none => refuse ("kill: invalid signal number or exit status: " ++ text)

def kill : Builtin := fun words => do
  match words with
  | ["-s"] => refuse "kill: No arg for -s option"
  | "-s" :: name :: rest =>
    match signal? name with
    | some s => sendAll s rest
    | none => refuse ("kill: invalid signal number or name: " ++ name)
  | "-l" :: text :: _ => nameSignal text
  | "--" :: rest => sendAll (some .terminate) rest
  | w :: rest =>
    match w.toList with
    | '-' :: c :: cs =>
      match signal? (String.ofList (c :: cs)) with
      | some s => sendAll s rest
      | none => refuse ("kill: Illegal option -" ++ c.toString)
    | _ => sendAll (some .terminate) (w :: rest)
  | [] => sendAll none []

/-- The bytes of the next line, without its end, and whether it had one. -/
def inputLine (raw : Bool) : Nat → List UInt8 → Run (List UInt8 × Bool)
  | 0, line => pure (line.reverse, false)
  | n + 1, line => do
    match ← Run.ask (.read 0 1) with
    | .ok [10] =>
      match line with
      | 92 :: rest => if raw then pure (line.reverse, true) else inputLine raw n rest
      | _ => pure (line.reverse, true)
    | .ok (b :: _) => inputLine raw n (b :: line)
    | _ => pure (line.reverse, false)

/-- Takes backslashes away that take the meaning from the character behind. -/
def unescaped : List Char → List Char
  | '\\' :: c :: r => c :: unescaped r
  | c :: r => c :: unescaped r
  | [] => []

/-- Puts the fields of a line into variables; the last one takes all that is left. -/
def distribute (blanks : List Char) : List String → List Char → List (String × String)
  | [], _ => []
  | [name], s =>
    [(name, String.ofList ((s.dropWhile blanks.contains).reverse.dropWhile blanks.contains).reverse)]
  | name :: names, s =>
    let s := s.dropWhile blanks.contains
    let field := s.takeWhile (!blanks.contains ·)
    (name, String.ofList field) :: distribute blanks names (s.drop field.length)

def read : Builtin := fun words => do
  let raw := words.contains "-r"
  let names := words.filter (!·.startsWith "-")
  let (bytes, whole) ← inputLine raw 1000000 []
  let text := (Text.decodeLossy bytes).toList
  let text := if raw then text else unescaped text
  let blanks := (((← get).value? "IFS").getD " \t\n").toList
  for (name, value) in distribute blanks names text do
    modify fun s => ((s.set? name value).getD s)
  return if whole then 0 else 1

/-- The permissions that new files do not get. -/
def umask : Builtin := fun words => if words.isEmpty then write "umask" (Text.encode "0022\n") else pure 0

/-- The commands of this module, by name. -/
def all : List (String × Builtin) :=
  let nothing (status : Nat) : Builtin := fun _ => pure status
  [("cd", cd), ("pwd", pwd), ("echo", echo), ("printf", printf), ("test", test "test"), ("[", test "["), ("set", set),
    ("shift", shift), ("unset", unset), ("export", marking "export" fun v => { v with exported := true }),
    ("readonly", marking "readonly" fun v => { v with fixed := true }), ("local", local_), ("trap", trap),
    ("wait", wait), ("kill", kill), ("read", read), ("umask", umask), ("ulimit", nothing 0), ("alias", nothing 0),
    ("hash", nothing 0), (":", nothing 0), ("true", nothing 0), ("false", nothing 1)]

/-- Words that one of these cannot use end the shell. -/
def isStrict (name : String) : Bool := ["export", "local", "readonly", "set", "shift", "unset"].contains name

/-- Assignments before one of these stay, and a redirection of it that fails ends the shell. -/
def isSpecial (name : String) : Bool :=
  specialNames.contains name

end Builtin

end ScriptRunner.Shell
