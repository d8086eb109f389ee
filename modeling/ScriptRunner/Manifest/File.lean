import ScriptRunner.Files.Access
import ScriptRunner.Manifest.Complaint

/-!
# Manifest files

The manifest of a directory stands in the file `fileName`.
-/

namespace ScriptRunner.Manifest

/-- The manifest of a directory, if it has one; else the reasons why it cannot be read, the outermost first. -/
def read (t : Tree) (dir : String) : Except (List String) (Option Manifest) :=
  let path := Path.join dir fileName
  if !t.hasFile path then .ok none
  else match t.readText path with
    | .error e => .error ["reading manifest at " ++ Text.quoted path, e]
    | .ok contents =>
      match parse? contents with
      | some m => .ok (some m)
      | none => .error ["parsing JSON manifest from " ++ Text.quoted path, complaint contents]

/-- A manifest is found where there is its file, and is what the file holds. -/
theorem read_eq_ok_iff {t : Tree} {dir : String} {manifest : Option Manifest} :
    read t dir = .ok manifest ↔ manifest.isSome = t.hasFile (Path.join dir fileName) ∧
      ∀ m ∈ manifest, ∃ text, t.readText (Path.join dir fileName) = .ok text ∧ parse? text = some m := by
  unfold read
  dsimp only
  cases t.hasFile (Path.join dir fileName) with
  | false => cases manifest <;> simp
  | true =>
    cases t.readText (Path.join dir fileName) with
    | error => cases manifest <;> simp
    | ok text =>
      cases hparse : parse? text <;> cases manifest <;> simp [hparse]

/-- The scripts of a directory's manifest. -/
def readScripts (t : Tree) (dir : String) : Except (List String) (Option ScriptTable) :=
  (read t dir).map (·.bind (·.scripts))

end ScriptRunner.Manifest
