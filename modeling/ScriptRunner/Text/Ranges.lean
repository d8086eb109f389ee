/-!
# Character ranges

Classes of characters given as a list of closed ranges of code points.
-/

namespace ScriptRunner.Text

/-- `n` lies in one of the closed ranges. -/
def inRanges (ranges : Array (Nat × Nat)) (n : Nat) : Bool :=
  ranges.any fun r => r.1 ≤ n && n ≤ r.2

end ScriptRunner.Text
