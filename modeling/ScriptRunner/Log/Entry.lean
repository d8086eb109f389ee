import ScriptRunner.Log.Level
import ScriptRunner.Text.Quoted

/-!
# Log entries

An entry has a level, a message and fields.  `Logged` is a value together with the entries written on the way to it,
in order.
-/

namespace ScriptRunner.Log

/-- The value of a field. -/
inductive Value where
  /-- A text as it is. -/
  | plain (text : String)
  /-- A text between quotes. -/
  | quoted (text : String)
  | number (n : Nat)
  | flag (b : Bool)
  deriving DecidableEq, Repr

def Value.text : Value → String
  | plain text => text
  | quoted text => Text.quoted text
  | number n => toString n
  | flag b => if b then "true" else "false"

/-- One event of a run. -/
structure Entry where
  level : Level
  message : String
  fields : List (String × Value) := []
  deriving DecidableEq, Repr

/-- The line of an entry: level, message, fields. -/
def Entry.line (e : Entry) : String :=
  " ".intercalate ([e.level.label, e.message] ++ e.fields.map fun f => f.1 ++ "=" ++ f.2.text)

/-- The entries that show at a level. -/
def visible (max : Level) (es : List Entry) : List Entry := es.filter fun e => max.shows e.level

end ScriptRunner.Log

namespace ScriptRunner

/-- A value and the entries written on the way to it. -/
structure Logged (α : Type u) where
  value : α
  entries : List Log.Entry := []

namespace Logged

instance : Monad Logged where
  pure a := ⟨a, []⟩
  bind x f := let y := f x.value; ⟨y.value, x.entries ++ y.entries⟩

/-- Writes one entry. -/
def note (level : Log.Level) (message : String) (fields : List (String × Log.Value) := []) : Logged Unit :=
  ⟨(), [⟨level, message, fields⟩]⟩

@[simp] theorem value_pure (a : α) : (pure a : Logged α).value = a := rfl

@[simp] theorem entries_pure (a : α) : (pure a : Logged α).entries = [] := rfl

@[simp] theorem value_bind (x : Logged α) (f : α → Logged β) : (x >>= f).value = (f x.value).value := rfl

@[simp] theorem entries_bind (x : Logged α) (f : α → Logged β) :
    (x >>= f).entries = x.entries ++ (f x.value).entries := rfl

instance : LawfulMonad Logged := LawfulMonad.mk' _
  (fun x => by cases x; simp [Functor.map]) (fun _ _ => by simp [bind, pure])
  (fun x f g => by simp [bind, List.append_assoc])

@[simp] theorem value_mapM {α β : Type} (f : α → Logged β) (as : List α) :
    (as.mapM f).value = as.map fun a => (f a).value := by
  induction as with
  | nil => rfl
  | cons a as ih => rw [List.mapM_cons, value_bind, value_bind, value_pure, ih, List.map_cons]

end Logged

end ScriptRunner
