import ScriptRunner.Decimal.Rounding

/-!
# Durations

A duration is a whole number of nanoseconds.  `Duration.inSeconds` is how reports show one, `Duration.brief` how log
lines do.
-/

namespace ScriptRunner

/-- A length of time, in nanoseconds. -/
structure Duration where
  nanos : Nat
  deriving DecidableEq, Repr, Inhabited

namespace Duration

/-- Nanoseconds in a second. -/
def perSecond : Nat := 1000000000

/-- Nanoseconds in a millisecond. -/
def perMilli : Nat := 1000000

def zero : Duration := ⟨0⟩

def ofSeconds (n : Nat) : Duration := ⟨n * perSecond⟩

def ofMillis (n : Nat) : Duration := ⟨n * perMilli⟩

/-- Seconds and nanoseconds together. -/
def ofParts (seconds nanos : Nat) : Duration := ⟨seconds * perSecond + nanos⟩

/-- The whole seconds. -/
def seconds (d : Duration) : Nat := d.nanos / perSecond

/-- The whole milliseconds. -/
def millis (d : Duration) : Nat := d.nanos / perMilli

/-- The nanoseconds beyond the whole seconds. -/
def subNanos (d : Duration) : Nat := d.nanos % perSecond

theorem ofParts_seconds_subNanos (d : Duration) : ofParts d.seconds d.subNanos = d := by
  simp only [ofParts, seconds, subNanos]
  rw [Nat.mul_comm, Nat.div_add_mod]

theorem subNanos_lt (d : Duration) : d.subNanos < perSecond := Nat.mod_lt _ (by decide)

theorem seconds_ofMillis (n : Nat) : (ofMillis n).seconds = n / 1000 := by
  simp only [seconds, ofMillis, perSecond, perMilli]; omega

theorem subNanos_ofMillis (n : Nat) : (ofMillis n).subNanos = n % 1000 * perMilli := by
  simp only [subNanos, ofMillis, perSecond, perMilli]; omega

theorem seconds_ofSeconds (n : Nat) : (ofSeconds n).seconds = n := by
  simp only [seconds, ofSeconds, perSecond]; omega

theorem subNanos_ofSeconds (n : Nat) : (ofSeconds n).subNanos = 0 := by
  simp only [subNanos, ofSeconds, perSecond]; omega

/-- A duration is its whole seconds and the nanoseconds beyond them. -/
theorem eq_iff_parts {d d' : Duration} : d = d' ↔ d.seconds = d'.seconds ∧ d.subNanos = d'.subNanos := by
  constructor
  · rintro rfl
    exact ⟨rfl, rfl⟩
  · rintro ⟨h, h'⟩
    rw [← ofParts_seconds_subNanos d, h, h', ofParts_seconds_subNanos]

/-- The duration in seconds as a binary fraction: each part is rounded to one, and so is their sum. -/
def toDouble (d : Duration) : Decimal.Ratio :=
  Decimal.nearestDouble
    ((Decimal.nearestDouble ⟨d.seconds, 1⟩).add (Decimal.nearestDouble ⟨d.subNanos, perSecond⟩))

/-- Seconds with a fixed number of places, and the unit. -/
def inSeconds (places : Nat) (d : Duration) : String := Decimal.fixed places d.toDouble ++ "s"

/-- A whole number with a fraction of `width` digits, without zeros at its end. -/
private def trimmedFraction (whole width fraction : Nat) : String :=
  let digits := ((Decimal.padded width fraction).reverse.dropWhile (· = '0')).reverse
  if digits.isEmpty then toString whole else toString whole ++ "." ++ String.ofList digits

/-- The duration in the largest unit that gives it a whole part, without rounding. -/
def brief (d : Duration) : String :=
  if perSecond ≤ d.nanos then trimmedFraction d.seconds 9 d.subNanos ++ "s"
  else if perMilli ≤ d.nanos then trimmedFraction (d.nanos / perMilli) 6 (d.nanos % perMilli) ++ "ms"
  else if 1000 ≤ d.nanos then trimmedFraction (d.nanos / 1000) 3 (d.nanos % 1000) ++ "µs"
  else toString d.nanos ++ "ns"

end Duration

end ScriptRunner
