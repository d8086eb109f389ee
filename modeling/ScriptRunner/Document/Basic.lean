/-!
# Documents

The values of the two file formats that are read, JSON and TOML, and the readers for the shapes found in them.  A record
is written as a table or as a list of its fields in order.  `Document.broken` stands for a value that may be passed
over but not read.
-/

namespace ScriptRunner

/-- A value of a file. -/
inductive Document where
  | null
  | flag (b : Bool)
  | integer (n : Int)
  /-- A number that is not written as an integer. -/
  | real
  | text (s : String)
  | list (items : List Document)
  /-- Keys and values in the order of the file; a key may come twice. -/
  | table (entries : List (String × Document))
  /-- A value that cannot be read: a malformed text, a number out of range, too deep a nesting. -/
  | broken
  deriving Repr, Inhabited

namespace Document

mutual

/-- Nothing in the value is broken. -/
def isReadable : Document → Bool
  | .broken => false
  | .list items => allReadable items
  | .table entries => entriesReadable entries
  | _ => true

def allReadable : List Document → Bool
  | [] => true
  | d :: ds => d.isReadable && allReadable ds

def entriesReadable : List (String × Document) → Bool
  | [] => true
  | e :: es => e.2.isReadable && entriesReadable es

end

/-! ### Readers -/

def text? : Document → Option String
  | .text s => some s
  | _ => none

def flag? : Document → Option Bool
  | .flag b => some b
  | _ => none

/-- A natural number of 64 bits. -/
def word? : Document → Option Nat
  | .integer n => if 0 ≤ n ∧ n < Nat.pow 2 64 then some n.toNat else none
  | _ => none

/-- A list of values that `read` accepts. -/
def list? (read : Document → Option α) : Document → Option (List α)
  | .list items => items.mapM read
  | _ => none

/-- Keys and values that `read` accepts. -/
def entries? (read : Document → Option α) : Document → Option (List (String × α))
  | .table entries => entries.mapM fun e => (read e.2).map fun a => (e.1, a)
  | _ => none

/-- Nothing for `null`, else what `read` accepts. -/
def optional? (read : Document → Option α) : Document → Option (Option α)
  | .null => some none
  | d => (read d).map some

/-- How a format writes records and cases. -/
structure Conventions where
  /-- A list may be longer than the record that it stands for. -/
  longLists : Bool
  /-- The values that may stand beside the name of a case. -/
  isEmptyPayload : Document → Bool

/-- The values of the fields of a record, in the order of their names. -/
def fields? (conv : Conventions) (names : List String) : Document → Option (List (Option Document))
  | .list items =>
    if names.length < items.length && !conv.longLists then none
    else some ((List.range names.length).map fun i => items[i]?)
  | .table entries =>
    names.mapM fun name =>
      match entries.filter (·.1 = name) with
      | [] => some none
      | [e] => some (some e.2)
      | _ => none
  | _ => none

/-- The value of a field that may be missing. -/
def field? (read : Document → Option α) (absent : α) : Option Document → Option α
  | none => some absent
  | some d => read d

/-- The name of a case without content. -/
def case? (conv : Conventions) : Document → Option String
  | .text s => some s
  | .table [(name, payload)] => if conv.isEmptyPayload payload then some name else none
  | _ => none

end Document

end ScriptRunner
