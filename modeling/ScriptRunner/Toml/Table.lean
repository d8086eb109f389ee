import ScriptRunner.Document.Basic

/-!
# TOML tables

A table comes about in one of several ways, and that decides what may still be added to it.  A header opens a table
once; keys with points open tables that no header may open again; the tables on the way to a header's own are open to a
header of theirs.
-/

namespace ScriptRunner.Toml

/-- How a table came about. -/
inductive Origin where
  /-- By its own header. -/
  | header
  /-- On the way to the table of a header. -/
  | implied
  /-- On the way to the value of a key with points. -/
  | dotted
  deriving DecidableEq, Repr

/-- What stands under a key. -/
inductive Item where
  /-- A value that nothing can be added to. -/
  | value (d : Document)
  | table (origin : Origin) (entries : List (String × Item))
  /-- The tables of a repeated header, the last one first. -/
  | tables (items : List (List (String × Item)))

abbrev Entries := List (String × Item)

namespace Entries

/-- The entries with the item of a key set. -/
def set (es : Entries) (key : String) (item : Item) : Entries :=
  if (es.lookup key).isSome then es.map fun e => if e.1 = key then (key, item) else e else es ++ [(key, item)]

/-- Changes the entries at the end of a header's path, and opens the tables on the way. -/
def within (f : Entries → Option Entries) : List String → Entries → Option Entries
  | [], es => f es
  | key :: path, es =>
    match es.lookup key with
    | none => (within f path []).map fun sub => es.set key (.table .implied sub)
    | some (.table origin sub) => (within f path sub).map fun sub => es.set key (.table origin sub)
    | some (.tables (sub :: more)) => (within f path sub).map fun sub => es.set key (.tables (sub :: more))
    | some _ => none

/-- Opens the table of a header. -/
def openTable (key : String) (es : Entries) : Option Entries :=
  match es.lookup key with
  | none => some (es.set key (.table .header []))
  | some (.table .implied sub) => some (es.set key (.table .header sub))
  | some _ => none

/-- Opens one more table of a repeated header. -/
def openNext (key : String) (es : Entries) : Option Entries :=
  match es.lookup key with
  | none => some (es.set key (.tables [[]]))
  | some (.tables items) => some (es.set key (.tables ([] :: items)))
  | some _ => none

/-- Adds a value under a key that is new. -/
def addNew (key : String) (d : Document) (es : Entries) : Option Entries :=
  if (es.lookup key).isSome then none else some (es.set key (.value d))

/-- Adds a value under a key with points.  `dotted` says whether the entries are those of a table that came about by
such a key. -/
def addDotted (key : String) (d : Document) : (dotted : Bool) → List String → Entries → Option Entries
  | dotted, [], es => if dotted then addNew key d es else none
  | _, step :: path, es =>
    match es.lookup step with
    | none => (addDotted key d true path []).map fun sub => es.set step (.table .dotted sub)
    | some (.table .header _) => none
    | some (.table origin sub) =>
      (addDotted key d (origin = .dotted) path sub).map fun sub => es.set step (.table origin sub)
    | some (.tables (sub :: more)) =>
      (addDotted key d false path sub).map fun sub => es.set step (.tables (sub :: more))
    | some _ => none

/-- Adds a value under a key, which may have points. -/
def add (path : List String) (key : String) (d : Document) (es : Entries) : Option Entries :=
  match path with
  | [] => addNew key d es
  | path => addDotted key d false path es

end Entries

mutual

def Item.document : Item → Document
  | .value d => d
  | .table _ es => .table (entriesDocument es)
  | .tables items => .list (itemsDocument items).reverse

/-- The values of a table's keys. -/
def entriesDocument : List (String × Item) → List (String × Document)
  | [] => []
  | e :: es => (e.1, e.2.document) :: entriesDocument es

def itemsDocument : List (List (String × Item)) → List Document
  | [] => []
  | es :: more => .table (entriesDocument es) :: itemsDocument more

end

end ScriptRunner.Toml
