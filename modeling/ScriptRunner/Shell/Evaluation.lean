import ScriptRunner.Shell.Builtin
import ScriptRunner.Shell.Expansion
import ScriptRunner.Shell.Parser
import ScriptRunner.Text.Lines
import ScriptRunner.Tools.Streams

/-!
# Running commands

A shell runs the commands of a script one after another.  A command of the shell itself and a compound command run in
the process of the shell; every other program, and every part of a pipeline, runs in a child.  `Shell.launch` is the
way into all programs: it gives the program that some words call.
-/

namespace ScriptRunner.Shell

/-- How a command has come to its end. -/
inductive Flow where
  | normal
  /-- Out of so many loops. -/
  | leave (loops : Nat)
  /-- To the next round of the loop so many loops up. -/
  | again (loops : Nat)
  /-- Out of a function. -/
  | back
  deriving DecidableEq, Repr

/-- What a command's place in the script means for it. -/
structure Place where
  /-- The status is looked at, so a failure does not end the shell. -/
  tested : Bool := false
  /-- Nothing else runs in this process afterwards. -/
  final : Bool := false

/-- Where the programs of a machine stand. -/
def programFolders : List String := ["/bin/", "/usr/bin/", "/usr/local/bin/"]

/-- The programs that start others. -/
def starters : List String := ["sh", "dash", "env", "which", "["]

def isProgram (name : String) : Bool := starters.contains name || Tools.all.any (·.1 = name)

/-- The folders of a search path. -/
def searchFolders (path : Option String) : List String :=
  match path with
  | none => []
  | some text => (Text.splitOn ':' text.toList).map fun folder =>
    if folder.isEmpty then "./" else String.ofList folder ++ if folder.getLast? = some '/' then "" else "/"

/-- The name of the program that a word calls, with a search path for words that are no path themselves. -/
def programName (t : Tree) (cwd : List String) (path : Option String) (word : String) : Except FileFault String :=
  if word.toList.contains '/' then
    let names := (programFolders.filter (word.startsWith ·)).map fun f => (word.drop f.length).toString
    match names.find? isProgram with
    | some name => .ok name
    | none =>
      match t.resolve cwd word with
      | .ok _ => .error .denied
      | .error e => .error e
  else if isProgram word && (searchFolders path).any programFolders.contains then .ok word
  else .error .notFound

/-- What a redirection that failed is called. -/
def openFault (mode : OpenMode) (path : String) (e : FileFault) : String :=
  let missing := e = .notFound || e = .notDirectory
  match mode with
  | .read => "cannot open " ++ path ++ ": " ++ if missing then "No such file" else e.reason
  | _ => "cannot create " ++ path ++ ": " ++ if missing then "Directory nonexistent" else e.reason

/-- Where a descriptor is kept while another takes its place. -/
def keptAt (depth fd : Nat) : Nat := 20 + 10 * depth + fd

/-- Makes redirections, up to the first that fails. -/
def redirectAll (around : Surroundings) : List Redirect → Run Bool
  | [] => pure true
  | r :: rest => do
    let good ← match r with
      | .file fd mode word => do
        let path ← textOf around word
        match ← Run.ask (.openFile fd path mode) with
        | .ok () => pure true
        | .error e => do
          Run.complain (openFault mode path e)
          pure false
      | .copy fd word => do
        let source ← textOf around word
        if source = "-" then do
          Run.ask (.close fd)
          pure true
        else
          match if source.length = 1 then source.toNat? else none with
          | none => fail around "Syntax error: Bad fd number"
          | some n =>
            match ← Run.ask (.copy n fd) with
            | .ok () => pure true
            | .error e => do
              Run.complain (source ++ ": " ++ e.reason)
              pure false
      | .here fd body => do
        let text ← textOf around body
        Run.ask (.pipe readingEnd writingEnd)
        let _ ← Run.ask (.write writingEnd (Text.encode text))
        Run.ask (.close writingEnd)
        let _ ← Run.ask (.copy readingEnd fd)
        Run.ask (.close readingEnd)
        pure true
    if good then redirectAll around rest else pure false

def redirectedFd : Redirect → Nat
  | .file fd _ _ => fd
  | .copy fd _ => fd
  | .here fd _ => fd

/-- Does something with redirections that hold only meanwhile.  One that fails may end the shell. -/
def withRedirects (around : Surroundings) (rs : List Redirect) (x : Run Flow) (strict : Bool := false) :
    Run Flow := do
  if rs.isEmpty then x
  else do
    let depth := (← get).depth
    let fds := (rs.map redirectedFd).eraseDups
    for fd in fds do
      let _ ← Run.ask (.copy fd (keptAt depth fd))
    modify fun s => { s with depth := depth + 1 }
    let flow ←
      if ← redirectAll around rs then x
      else do
        Run.setStatus 2
        if strict then around.leave 2
        pure .normal
    modify fun s => { s with depth := depth }
    for fd in fds do
      match ← Run.ask (.copy (keptAt depth fd) fd) with
      | .ok () => Run.ask (.close (keptAt depth fd))
      | .error _ => Run.ask (.close fd)
    return flow

/-- Waits for a child that runs in the foreground, and takes its status. -/
def awaitForeground (child : Nat) : Run Unit := do
  let s ← get
  let guards := s.isRoot && (s.trap? (.arrival .interrupt)).isNone && !s.deaf.contains .interrupt
  if guards then Run.ask (.dispose .interrupt .caught)
  let r ← Run.ask (.await (some child) false)
  if guards then do
    Run.collect
    Run.ask (.dispose .interrupt .standard)
    if (← get).arrived.contains .interrupt then do
      let (id, _) ← Run.ask .identity
      let _ ← Run.ask (.send (.process id) (some .interrupt))
  match r with
  | .ended _ how => do
    Run.tellEnding how
    Run.setStatus how.status
  | _ => pure ()

/-- Does something with commands from elsewhere than the script. -/
def within (label : String) (x : Run Flow) : Run Flow := do
  let earlier := (← get).within
  modify fun s => { s with within := label }
  let flow ← x
  modify fun s => { s with within := earlier }
  pure flow

/-- Shows a command before it runs, if the shell is told to. -/
def trace (values : List (String × String)) (words : List String) : Run Unit := do
  let shown := values.map (fun e => e.1 ++ "=" ++ e.2) ++ words
  if (← get).options.contains 'x' && !shown.isEmpty then
    Run.lift (Act.print 2 ("+ " ++ " ".intercalate shown ++ "\n"))

/-- Does something within one more loop. -/
def looping (x : Run Flow) : Run Flow := do
  modify fun s => { s with loops := s.loops + 1 }
  let flow ← x
  modify fun s => { s with loops := s.loops - 1 }
  pure flow

/-- The descriptor that a part of a pipeline reads from. -/
def feed : Nat := 14

mutual

/-- Runs a command. -/
def eval : Nat → Place → Command → Run Flow
  | 0, _, _ => Run.lift (Act.exit 255)
  | n + 1, place, command => do
    let around := surroundings n
    if (← get).options.contains 'n' then return .normal
    match command with
    | .nothing => pure .normal
    | .simple assignments words redirects line => do
      modify fun s => { s with line := line }
      let flow ← simpleCommand n place assignments words redirects
      settle n place flow
    | .pipeline parts => do
      let children ← startParts n false parts
      for child in children do
        awaitForeground child
      settle n place .normal
    | .not c => do
      let flow ← eval n { tested := true } c
      modify fun s => { s with status := if s.status = 0 then 1 else 0 }
      pure flow
    | .both a b => do
      match ← eval n { tested := true } a with
      | .normal => if (← get).status = 0 then eval n place b else pure .normal
      | flow => pure flow
    | .either a b => do
      match ← eval n { tested := true } a with
      | .normal => if (← get).status = 0 then pure .normal else eval n place b
      | flow => pure flow
    | .sequence a b => do
      match ← eval n { place with final := place.final && b matches .nothing } a with
      | .normal => eval n place b
      | flow => pure flow
    | .background c => do
      let child ← Run.fork (do
        Run.ask (.dispose .interrupt .ignored)
        Run.ask (.dispose .quit .ignored)
        let _ ← Run.ask (.openFile 0 "/dev/null" .read)
        let _ ← eval n { final := true } c
        pure ())
      modify fun s => { s with background := some child, status := 0 }
      pure .normal
    | .subshell c redirects => do
      let inside : Run Unit := do
        if ← redirectAll around redirects then do
          let _ ← eval n { tested := place.tested, final := true } c
          leave n (← get).status
        else Run.setStatus 2
      if place.final && (← get).traps.isEmpty then do
        Run.detach
        inside
        Run.lift (Act.exit (← get).status)
      else do
        awaitForeground (← Run.fork inside)
        settle n place .normal
    | .group c redirects =>
      withRedirects around redirects (eval n { place with final := place.final && redirects.isEmpty } c)
    | .branch condition yes no redirects =>
      withRedirects around redirects (do
        match ← eval n { tested := true } condition with
        | .normal =>
          let place := { place with final := place.final && redirects.isEmpty }
          if (← get).status = 0 then eval n place yes
          else do
            Run.setStatus 0
            eval n place no
        | flow => pure flow)
    | .loop truth condition body redirects =>
      withRedirects around redirects (looping (repeating n place truth condition body 0))
    | .each name words body redirects =>
      withRedirects around redirects (looping do
        let values ← match words with
          | some ws => do
            let fields ← ws.mapM (fieldsOf around)
            pure fields.flatten
          | none => pure (← get).arguments
        Run.setStatus 0
        visiting n place name values body)
    | .select word arms redirects =>
      withRedirects around redirects (do
        let text ← textOf around word
        Run.setStatus 0
        selecting n place text.toList arms)
    | .define name body => do
      modify fun s => { s with functions := (name, body) :: s.functions.filter (·.1 ≠ name), status := 0 }
      pure .normal

/-- What expansions need. -/
def surroundings : Nat → Surroundings
  | 0 => ⟨fun _ => pure (), fun code => Run.lift (Act.exit code)⟩
  | n + 1 =>
    ⟨fun c => do
        let _ ← eval n { final := true } c
        leave n (← get).status,
      leave n⟩

/-- Ends the shell, after its trap. -/
def leave : Nat → Nat → Run Unit
  | 0, code => Run.lift (Act.exit code)
  | n + 1, code => do
    match (← get).trap? .leaving with
    | none => Run.lift (Act.exit code)
    | some action => do
      modify fun s => { s with status := code, traps := s.traps.filter (·.1 ≠ .leaving) }
      let _ ← evalText n {} action
      Run.lift (Act.exit code)

/-- Runs the traps of the signals that have arrived. -/
def serveTraps : Nat → Flow → Run Flow
  | 0, flow => pure flow
  | n + 1, flow => do
    if !(← get).hasTraps then return flow
    Run.collect
    let mut flow := flow
    for signal in (← get).arrived do
      match (← get).trap? (.arrival signal) with
      | none => pure ()
      | some action => do
        let status := (← get).status
        modify fun s => { s with arrived := s.arrived.filter (· ≠ signal) }
        match ← evalText n {} action with
        | .normal => Run.setStatus status
        | other => flow := other
    return flow

/-- What follows every command: traps run, and a failure ends a shell that is told so. -/
def settle : Nat → Place → Flow → Run Flow
  | 0, _, flow => pure flow
  | n + 1, place, flow => do
    let flow ← serveTraps n flow
    let s ← get
    if s.status ≠ 0 && !place.tested && s.options.contains 'e' then leave n s.status
    return flow

/-- Runs the commands of a text. -/
def evalText : Nat → Place → String → Run Flow
  | 0, _, _ => pure .normal
  | n + 1, place, text => evalSource n place { rest := text.toList, line := 1 }

def evalSource : Nat → Place → Source → Run Flow
  | 0, _, _ => pure .normal
  | n + 1, place, source => do
    match nextLine source with
    | .error e => do
      modify fun s => { s with line := e.line }
      Run.complain e.message
      leave n 2
      pure .normal
    | .ok (none, _) => pure .normal
    | .ok (some c, rest) => do
      match ← eval n { place with final := place.final && rest.rest.isEmpty } c with
      | .normal => evalSource n place rest
      | flow => pure flow

/-- Repeats a body while the condition has the given truth. -/
def repeating : Nat → Place → Bool → Command → Command → Nat → Run Flow
  | 0, _, _, _, _, _ => Run.lift (Act.exit 255)
  | n + 1, place, truth, condition, body, status => do
    Run.ask .pause
    match ← eval n { tested := true } condition with
    | .leave (k + 1) => pure (if k = 0 then .normal else .leave k)
    | .again (k + 1) => if k = 0 then repeating n place truth condition body status else pure (.again k)
    | .normal =>
      if ((← get).status = 0) = truth then do
        match ← eval n { place with final := false } body with
        | .leave (k + 1) => pure (if k = 0 then .normal else .leave k)
        | .again (k + 1) =>
          if k = 0 then repeating n place truth condition body (← get).status else pure (.again k)
        | .normal => repeating n place truth condition body (← get).status
        | flow => pure flow
      else do
        Run.setStatus status
        pure .normal
    | flow => pure flow

/-- Runs a body for each value. -/
def visiting : Nat → Place → String → List String → Command → Run Flow
  | 0, _, _, _, _ => Run.lift (Act.exit 255)
  | _ + 1, _, _, [], _ => pure .normal
  | n + 1, place, name, value :: rest, body => do
    Run.ask .pause
    assign (surroundings n) name value
    match ← eval n { place with final := false } body with
    | .leave (k + 1) => pure (if k = 0 then .normal else .leave k)
    | .again (k + 1) => if k = 0 then visiting n place name rest body else pure (.again k)
    | .normal => visiting n place name rest body
    | flow => pure flow

/-- Runs the first arm that a text matches. -/
def selecting : Nat → Place → List Char → List (List Word × Command) → Run Flow
  | 0, _, _, _ => pure .normal
  | _ + 1, _, _, [] => pure .normal
  | n + 1, place, text, (patterns, body) :: rest => do
    let atoms ← patterns.mapM (patternOf (surroundings n))
    if atoms.any fun as => Pattern.matchesText as text then eval n place body
    else selecting n place text rest

/-- Starts the parts of a pipeline, each with the output of the part before as its input. -/
def startParts : Nat → Bool → List Command → Run (List Nat)
  | 0, _, _ => pure []
  | _ + 1, _, [] => pure []
  | n + 1, fed, part :: rest => do
    let feeds := !rest.isEmpty
    if feeds then Run.ask (.pipe 10 11)
    let child ← Run.fork (do
      if fed then do
        let _ ← Run.ask (.copy feed 0)
        Run.ask (.close feed)
      if feeds then do
        let _ ← Run.ask (.copy 11 1)
        Run.ask (.close 10)
        Run.ask (.close 11)
      let _ ← eval n { final := true } part
      pure ())
    if fed then Run.ask (.close feed)
    if feeds then do
      let _ ← Run.ask (.copy 10 feed)
      Run.ask (.close 10)
      Run.ask (.close 11)
    return child :: (← startParts n feeds rest)

/-- Runs a simple command: assignments alone, a command of the shell, a function, or a program. -/
def simpleCommand : Nat → Place → List (String × Word) → List Word → List Redirect → Run Flow
  | 0, _, _, _, _ => pure .normal
  | n + 1, place, assignments, words, redirects => do
    let around := surroundings n
    modify fun s => { s with inner := none }
    let fields ← (do
      let parts ← words.mapM (fieldsOf around)
      pure parts.flatten : Run (List String))
    match fields with
    | [] =>
      withRedirects around redirects (do
        let values ← assignments.mapM fun (a : String × Word) => do
          let value ← textOf around a.2
          assign around a.1 value
          return (a.1, value)
        trace values []
        Run.setStatus ((← get).inner.getD 0)
        pure .normal)
    | name :: arguments => do
      let values ← assignments.mapM fun (a : String × Word) => do return (a.1, ← textOf around a.2)
      trace values fields
      match (← get).functions.lookup name with
      | some body =>
        withRedirects around redirects (assigning n values (callFunction n place body arguments))
      | none =>
        match builtin? n place name arguments with
        | some run => do
          if name = "exec" then do
            for (x, value) in values do
              assign around x value
            if ← redirectAll around redirects then run else do
              leave n 2
              pure .normal
          else if Builtin.isSpecial name then
            withRedirects around redirects (do
              for (x, value) in values do
                assign around x value
              let flow ← run
              if Builtin.isStrict name && (← get).status = 2 then leave n 2
              pure flow) true
          else withRedirects around redirects (assigning n values run)
        | none => do
          Run.ask .pause
          let inside : Run Unit := do
            if ← redirectAll around redirects then do
              for (x, value) in values do
                assign around x value
                modify fun s => s.mark x fun v => { v with exported := true }
              replace n "" (name :: arguments)
            else Run.lift (Act.exit 2)
          if place.final && (← get).traps.isEmpty then inside
          else awaitForeground (← Run.fork inside)
          pure .normal

/-- Does something with variables that have other values meanwhile. -/
def assigning : Nat → List (String × String) → Run Flow → Run Flow
  | 0, _, x => x
  | n + 1, values, x => do
    let s ← get
    let old := values.map fun e => (e.1, s.bindings.get? e.1)
    for (name, value) in values do
      assign (surroundings n) name value
      modify fun s => s.mark name fun v => { v with exported := true }
    let flow ← x
    for (name, earlier) in old do
      modify fun s => s.restore name earlier
    return flow

/-- Calls a function: it has arguments of its own, and its local variables end with it. -/
def callFunction : Nat → Place → Command → List String → Run Flow
  | 0, _, _, _ => Run.lift (Act.exit 255)
  | n + 1, place, body, arguments => do
    let outer ← get
    modify fun s => { s with arguments := arguments, frames := [] :: s.frames, loops := 0 }
    let flow ← eval n { tested := place.tested } body
    modify fun s =>
      let s := (s.frames.headD []).foldl (fun s e => s.restore e.1 e.2) s
      { s with arguments := outer.arguments, frames := s.frames.drop 1, loops := outer.loops }
    pure (match flow with | .back => .normal | flow => flow)

/-- Becomes another program; a message that there is none starts with `sign`. -/
def replace : Nat → String → List String → Run Unit
  | 0, _, _ => Run.lift (Act.exit 255)
  | n + 1, sign, words => do
    let (tree, cwd) ← Run.ask .look
    let name := words.headD ""
    let tell (message : String) : Run Unit := if sign.isEmpty then Run.complain message else Run.report message
    if name.isEmpty then do
      tell (sign ++ ": Permission denied")
      Run.lift (Act.exit (if sign.isEmpty then 127 else 126))
    else match programName tree cwd ((← get).value? "PATH") name with
    | .ok program => do
      let environment := (← get).environment
      Run.lift (Act.become (launch n program (words.drop 1) environment))
    | .error e => do
      tell (sign ++ name ++ ": " ++ if e = .notFound || e = .notDirectory then "not found" else e.reason)
      Run.lift (Act.exit (if e = .notFound || e = .notDirectory then 127 else 126))

/-- The commands of the shell itself, with what they do. -/
def builtin? : Nat → Place → String → List String → Option (Run Flow)
  | 0, _, _, _ => none
  | n + 1, place, name, arguments =>
    let count (standard : Nat) : Nat := ((arguments.head?.bind String.toNat?).getD standard)
    match name with
    | "exit" => some (do
      let status := (← get).status
      match arguments with
      | [] => leave n status
      | word :: _ =>
        match word.toNat? with
        | some code => leave n code
        | none => do
          Run.report ("exit: Illegal number: " ++ word)
          leave n 2
      pure .normal)
    | "return" => some (do
      if !arguments.isEmpty then Run.setStatus (count 2)
      pure .back)
    | "break" => some (do
      Run.setStatus 0
      let loops := min (← get).loops (max 1 (count 1))
      pure (if loops = 0 then .normal else .leave loops))
    | "continue" => some (do
      Run.setStatus 0
      let loops := min (← get).loops (max 1 (count 1))
      pure (if loops = 0 then .normal else .again loops))
    | "eval" => some (within "eval: " (evalText n { place with final := false } (" ".intercalate arguments)))
    | "exec" => some (do
      if arguments.isEmpty then Run.setStatus 0 else replace n "exec: " arguments
      pure .normal)
    | "." => some (do
      let (tree, cwd) ← Run.ask .look
      let path := (← get).value? "PATH"
      let name := arguments.headD ""
      let isPath := name.toList.contains '/'
      let places := if isPath then [name] else (searchFolders path).map (· ++ name)
      let texts := places.filterMap fun place => ((tree.read cwd place).toOption).map fun data => (place, data)
      match texts with
      | (place', data) :: _ => within (place' ++ ": ") (evalText n {} (Text.decodeLossy data))
      | [] => do
        Run.report (if isPath then ".: cannot open " ++ name ++ ": No such file" else ".: " ++ name ++ ": not found")
        leave n 2
        pure .normal)
    | "type" => some (do
      let (tree, cwd) ← Run.ask .look
      let path := (← get).value? "PATH"
      let mut status := 0
      for x in arguments do
        let isFunction := (← get).functions.any (·.1 = x)
        let kind? := if Reading.isReserved x then some "a shell keyword"
          else if isFunction then some "a shell function"
          else if Builtin.isSpecial x then some "a special shell builtin"
          else if (Builtin.all.lookup x).isSome then some "a shell builtin"
          else match programName tree cwd path x with
            | .ok name => some ("/usr/bin/" ++ name)
            | .error _ => none
        match kind? with
        | some kind => status ← Builtin.write "type" (Text.encode (x ++ " is " ++ kind ++ "\n"))
        | none => do
          let _ ← Builtin.write "type" (Text.encode (x ++ ": not found\n"))
          status := 127
      Run.setStatus status
      pure .normal)
    | "command" =>
      match arguments with
      | "-v" :: x :: _ => some (do
        let (tree, cwd) ← Run.ask .look
        let path := (← get).value? "PATH"
        let known := Reading.isReserved x || (builtin? n place x []).isSome || (← get).functions.any (·.1 = x)
        let text? := if known then some x
          else match programName tree cwd path x with
            | .ok name => some (if x.toList.contains '/' then x else "/usr/bin/" ++ name)
            | .error _ => none
        match text? with
        | some text => Run.setStatus (← Builtin.write "command" (Text.encode (text ++ "\n")))
        | none => Run.setStatus 127
        pure .normal)
      | "-V" :: rest => builtin? n place "type" rest
      | "-p" :: rest => builtin? n place "command" rest
      | x :: rest =>
        match builtin? n place x rest with
        | some run => some run
        | none => some (do
          awaitForeground (← Run.fork (replace n "" (x :: rest)))
          pure .normal)
      | [] => some (pure .normal)
    | name => (Builtin.all.lookup name).map fun run => do
      Run.setStatus (← run arguments)
      pure .normal

/-- What a program does that is called with some arguments in some environment. -/
def launch : Nat → String → List String → List (String × String) → Program
  | 0, _, _, _ => .exit 255
  | n + 1, name, arguments, environment =>
    match name with
    | "sh" => Act.program (shell n arguments environment)
    | "dash" => Act.program (shell n arguments environment)
    | "[" => Act.program (do
      match (Tools.all.lookup "test") with
      | some tool => tool arguments.dropLast
      | none => pure 127)
    | "which" => Act.program (do
      let (tree, cwd) ← Act.ask .look
      let mut missing := 0
      for word in arguments do
        match programName tree cwd (environment.lookup "PATH") word with
        | .ok program => Act.print 1 ((if word.toList.contains '/' then word else "/usr/bin/" ++ program) ++ "\n")
        | .error _ => missing := 1
      pure missing)
    | "env" =>
      let isSetting (w : String) : Bool := w.toList.contains '='
      let bare := arguments.head? = some "-i" || arguments.head? = some "-"
      let words := if bare then arguments.drop 1 else arguments
      let settings := (words.takeWhile isSetting).map fun w =>
        let name := w.toList.takeWhile (· ≠ '=')
        (String.ofList name, String.ofList (w.toList.drop (name.length + 1)))
      let path := environment.lookup "PATH"
      let environment := (if bare then [] else environment.filter fun e => !settings.any (·.1 = e.1)) ++ settings
      match words.dropWhile isSetting with
      | [] => Act.program (do
        Act.print 1 (String.join (environment.map fun e => e.1 ++ "=" ++ e.2 ++ "\n"))
        pure 0)
      | word :: rest => Act.program (do
        let (tree, cwd) ← Act.ask .look
        match programName tree cwd ((environment.lookup "PATH").or path) word with
        | .ok program => Act.become (launch n program rest environment)
        | .error e => do
          Tools.say "env" (Tools.shown word ++ ": " ++ e.reason)
          pure (if e = .notFound then 127 else 126))
    | name =>
      match Tools.all.lookup name with
      | some tool => Act.program (tool arguments)
      | none => .exit 127

/-- A shell: it runs the text behind `-c`, a file, or its input. -/
def shell : Nat → List String → List (String × String) → Act Nat
  | 0, _, _ => pure 255
  | n + 1, arguments, environment => do
    let flags := arguments.takeWhile fun w => w.startsWith "-" && w ≠ "--" && w ≠ "-"
    let letters := flags.flatMap fun w => w.toList.drop 1
    let rest := arguments.drop flags.length
    let isLetter (c : Char) : Bool := c = 'c' || Builtin.optionTable.any (·.2 = some c)
    if let some c := letters.find? (!isLetter ·) then
      Act.print 2 ("sh: 0: Illegal option -" ++ c.toString ++ "\n")
      return 2
    let rest := if rest.head? = some "--" then rest.drop 1 else rest
    let (process, _) ← Act.ask .identity
    let (_, cwd) ← Act.ask .look
    let deaf ← Act.ask .ignores
    let start (name : String) (arguments : List String) : State :=
      { State.initial name arguments environment (Path.ofComponents ("/" :: cwd)) process with
        deaf := deaf
        options := letters.filter fun c => c ≠ 'c' && c ≠ 's' }
    let finish (s : State) (text : String) : Act Nat := do
      let (_, s) ← (do
        let _ ← evalText n {} text
        leave n (← get).status : Run Unit).run s
      pure s.status
    let input (arguments : List String) : Act Nat := do
      match ← Act.readAll 0 1000000 [] with
      | .ok data => finish (start "sh" arguments) (Text.decodeLossy data)
      | .error _ => pure 0
    if letters.contains 'c' then
      match rest with
      | text :: more => finish (start (more.headD "sh") (more.drop 1)) text
      | [] => do
        Act.print 2 "sh: 0: -c requires an argument\n"
        pure 2
    else if letters.contains 's' then input rest
    else
      match rest with
      | path :: more => do
        let (tree, cwd) ← Act.ask .look
        match tree.read cwd path with
        | .ok data => finish (start path more) (Text.decodeLossy data)
        | .error _ => do
          Act.print 2 ("sh: 0: cannot open " ++ path ++ ": No such file\n")
          pure 2
      | [] => input []

end

/-- More steps than the shell of any script takes before it is given up. -/
def shellFuel : Nat := 10000000

/-- The program that some words call in a directory, in some environment. -/
def program? (t : Tree) (cwd : List String) (words : List String) (environment : List (String × String)) :
    Except FileFault Program :=
  match words with
  | [] => .error .invalid
  | word :: arguments =>
    match programName t cwd (environment.lookup "PATH") word with
    | .ok name => .ok (launch shellFuel name arguments environment)
    | .error e => .error e

end ScriptRunner.Shell
