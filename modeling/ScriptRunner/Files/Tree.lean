import ScriptRunner.SortedMap

/-!
# File trees

Files, symbolic links and directories under one top.  `Node.get?` and `Node.put?` work on the names along a path and
follow no link; `Files.Access` resolves links.
-/

namespace ScriptRunner

/-- What stands under a name of a directory.  Times are in nanoseconds since the epoch. -/
inductive Node where
  | file (data : List UInt8) (modified : Nat)
  /-- A symbolic link to a path. -/
  | link (target : String) (modified : Nat)
  /-- Names in ascending order. -/
  | dir (entries : List (String × Node))
  /-- A file that the system provides. -/
  | device (name : String)
  deriving Inhabited, Repr

namespace Node

/-- The entry of a name. -/
def child? (entries : List (String × Node)) (name : String) : Option Node := entries.lookup name

/-- What stands at the end of some names. -/
def get? (t : Node) : List String → Option Node
  | [] => some t
  | name :: rest =>
    match t with
    | dir entries => (child? entries name).bind fun n => n.get? rest
    | _ => none

theorem mem_of_child? {entries : List (String × Node)} {name : String} {n : Node} (h : child? entries name = some n) :
    (name, n) ∈ entries := by
  obtain ⟨before, after, rfl, -⟩ := List.lookup_eq_some_iff.1 h
  simp

theorem get?_append (t : Node) (names rest : List String) :
    t.get? (names ++ rest) = (t.get? names).bind fun n => n.get? rest := by
  induction names generalizing t with
  | nil => rfl
  | cons name names ih =>
    cases t with
    | dir entries =>
      simp only [List.cons_append, get?]
      cases child? entries name with
      | none => rfl
      | some child => exact ih child
    | _ => rfl

theorem get?_cons_eq_some_iff {t n : Node} {name : String} {rest : List String} :
    t.get? (name :: rest) = some n ↔
      ∃ entries child, t = .dir entries ∧ child? entries name = some child ∧ child.get? rest = some n := by
  cases t with
  | dir entries => simp [get?, Option.bind_eq_some_iff]
  | _ => simp [get?]

/-- The entries with a name set, or taken out. -/
def setChild (entries : List (String × Node)) (name : String) (n : Option Node) : List (String × Node) :=
  match n with
  | some n => SortedMap.insertEntry name n entries
  | none => entries.filter (·.1 ≠ name)

/-- The tree with something else at the end of some names; nothing if the directory is missing. -/
def put? (t : Node) (n : Option Node) : List String → Option Node
  | [] => n
  | [name] =>
    match t with
    | dir entries => some (dir (setChild entries name n))
    | _ => none
  | name :: rest =>
    match t with
    | dir entries => do
      let old ← child? entries name
      let new ← old.put? n rest
      pure (dir (setChild entries name (some new)))
    | _ => none

def isDir : Node → Bool
  | dir _ => true
  | _ => false

def isFile : Node → Bool
  | file _ _ => true
  | _ => false

def isLink : Node → Bool
  | link _ _ => true
  | _ => false

/-- The names in a directory. -/
def names : Node → List String
  | dir entries => entries.map (·.1)
  | _ => []

end Node

end ScriptRunner
