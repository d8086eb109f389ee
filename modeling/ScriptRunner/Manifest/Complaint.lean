import ScriptRunner.Json.Complaint
import ScriptRunner.Manifest.Basic

/-!
# Complaints about a manifest

What is wrong with the text of a manifest that cannot be read.  The scans follow the shape of a manifest: fields that
are known must have values of their kind, all others may have any.
-/

namespace ScriptRunner.Manifest

open Json (Scan)
open Json.Scan

/-- Member globs, as a scan. -/
def scanWorkspaces : Scan Unit := do
  let before := (← get).rest
  value true (before.length + 1) 1
  let text := before.take (before.length - (← get).rest.length)
  if ((Json.parse? (String.ofList text)).bind workspaces?).isNone then
    throw (.unplaced (.noVariant "WorkspacesField") (← get))

/-- The fields of a manifest, as scans of their values. -/
def fieldScans : List (String × Scan Unit) :=
  let any : Scan Unit := do value true ((← get).rest.length + 1) 2
  let packages (name : String) : String × Scan Unit := (name, wantTable any)
  [("name", orNull wantText), ("scripts", orNull (wantTable wantText)), packages "dependencies",
    packages "devDependencies", packages "peerDependencies", packages "optionalDependencies",
    ("workspaces", orNull scanWorkspaces)]

/-- The fields of a manifest in a table, up to its closing brace.  A field may come once. -/
def scanFields (met : List String) : Nat → Scan Unit
  | 0 => pure ()
  | fuel + 1 => do
    let key ← text true
    if met.contains key then throw (.unplaced (.repeatedField key) (← get))
    colon
    match fieldScans.lookup key with
    | some x =>
      x
      if ← anotherEntry true then scanFields (key :: met) fuel
    | none =>
      value false ((← get).rest.length + 1) 1
      if ← anotherEntry true then scanFields met fuel

/-- The fields of a manifest in a list, and the end of the list. -/
def scanItems (first : Bool) : List (Scan Unit) → Scan Unit
  | [] => do
    match ← upcoming with
    | none => failAhead .endInList
    | some ']' => eat
    | some ',' =>
      eat
      failAhead (if (← upcoming) = some ']' then .trailingComma else .trailingCharacters)
    | some _ => failAhead .trailingCharacters
  | x :: xs => do
    match ← upcoming with
    | none => failAhead .endInList
    | some ']' => eat
    | some c =>
      if !first && c ≠ ',' then failAhead .expectedListEnd
      if !first then
        eat
        match ← upcoming with
        | none => failAhead .endInValue
        | some ']' => failAhead .trailingComma
        | some _ => pure ()
      x
      scanItems false xs

/-- A whole manifest.  A fault without a place counts behind the end of the table or list, if it comes next. -/
def scan : Scan Unit := do
  let closing (mark : Char) (f : Json.Fault) (p : Json.Place) : Scan Unit := do
    set p
    if (← upcoming) = some mark then eat
    failHere f
  match ← upcoming with
  | none => failAhead .endInValue
  | some '\x7b' =>
    eat
    try
      if ← firstEntry then scanFields [] ((← get).rest.length + 1)
    catch
      | .unplaced f p => closing '\x7d' f p
      | stop => throw stop
    eat
  | some '[' =>
    eat
    try
      scanItems true (fieldScans.map (·.2))
    catch
      | .unplaced f p => closing ']' f p
      | stop => throw stop
  | some _ => refuse "struct PackageManifest"
  finish

/-- What is wrong with the text of a manifest that cannot be read. -/
def complaint (text : String) : String :=
  match scan.run ⟨text.toList, 1, 0⟩ with
  | .error (.placed c) => c.message
  | _ => "malformed"

end ScriptRunner.Manifest
