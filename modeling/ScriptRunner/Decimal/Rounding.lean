/-!
# Rounding quotients

`roundHalfEven` is the nearest natural number to a quotient, an exact half going to the even neighbour
(`two_mul_roundHalfEven_le`, `le_two_mul_roundHalfEven`: never further off than a half).  `fixed` writes a quotient
with a given number of places, `nearestDouble` is the nearest binary fraction with 53 significant bits.
-/

namespace ScriptRunner.Decimal

/-- The natural number nearest to `num / den`; a half goes to the even neighbour. -/
def roundHalfEven (num den : Nat) : Nat :=
  let q := num / den
  let r := num % den
  if 2 * r < den then q else if den < 2 * r then q + 1 else q + q % 2

theorem two_mul_roundHalfEven_le {num den : Nat} (h : 0 < den) :
    2 * den * roundHalfEven num den ≤ 2 * num + den := by
  have e := Nat.div_add_mod num den
  have hr := Nat.mod_lt num h
  unfold roundHalfEven
  generalize hq : num / den = q at *
  generalize hm : num % den = r at *
  have e₂ : 2 * den * q = 2 * (den * q) := Nat.mul_assoc ..
  dsimp only
  split
  · omega
  · split
    · rw [Nat.mul_add, e₂]; omega
    · rcases Nat.mod_two_eq_zero_or_one q with hz | hz <;> rw [hz, Nat.mul_add, e₂] <;> omega

theorem le_two_mul_roundHalfEven {num den : Nat} (h : 0 < den) :
    2 * num ≤ 2 * den * roundHalfEven num den + den := by
  have e := Nat.div_add_mod num den
  have hr := Nat.mod_lt num h
  unfold roundHalfEven
  generalize hq : num / den = q at *
  generalize hm : num % den = r at *
  have e₂ : 2 * den * q = 2 * (den * q) := Nat.mul_assoc ..
  dsimp only
  split
  · omega
  · split
    · rw [Nat.mul_add, e₂]; omega
    · rcases Nat.mod_two_eq_zero_or_one q with hz | hz <;> rw [hz, Nat.mul_add, e₂] <;> omega

/-- A nonnegative quotient of natural numbers. -/
structure Ratio where
  num : Nat
  den : Nat
  deriving Repr, DecidableEq

/-- The sum of two quotients. -/
def Ratio.add (a b : Ratio) : Ratio := ⟨a.num * b.den + b.num * a.den, a.den * b.den⟩

/-- The nearest number of the form `m * 2 ^ e` with `m < 2 ^ 53`; a half goes to the even `m`.  For quotients from
`2 ^ -50` on. -/
def nearestDouble (x : Ratio) : Ratio :=
  if x.num = 0 then ⟨0, 1⟩ else
    let n := x.num.log2
    let d := x.den.log2
    -- the binary exponent of the quotient, raised by 53
    let s := if x.num * Nat.pow 2 d < x.den * Nat.pow 2 n then n + 53 - d - 1 else n + 53 - d
    if 105 ≤ s then ⟨roundHalfEven x.num (x.den * Nat.pow 2 (s - 105)) * Nat.pow 2 (s - 105), 1⟩
    else ⟨roundHalfEven (x.num * Nat.pow 2 (105 - s)) x.den, Nat.pow 2 (105 - s)⟩

/-- The digits of `n`, with zeros in front up to `width`. -/
def padded (width n : Nat) : List Char :=
  let digits := Nat.toDigits 10 n
  List.replicate (width - digits.length) '0' ++ digits

/-- The quotient with `places` digits after the point. -/
def fixed (places : Nat) (x : Ratio) : String :=
  let unit := Nat.pow 10 places
  let n := roundHalfEven (x.num * unit) x.den
  if places = 0 then toString n else toString (n / unit) ++ "." ++ String.ofList (padded places (n % unit))

/-- The quotient times a power of ten. -/
def Ratio.scaled (x : Ratio) (e : Int) : Ratio :=
  if 0 ≤ e then ⟨x.num * Nat.pow 10 e.toNat, x.den⟩ else ⟨x.num, x.den * Nat.pow 10 (-e).toNat⟩

/-- The quotient as a number of `places + 1` digits and the power of ten that its first digit counts. -/
def significant (places : Nat) (x : Ratio) : Nat × Int :=
  if x.num = 0 then (0, 0) else
    let guess : Int := (Nat.toDigits 10 x.num).length - (Nat.toDigits 10 x.den).length
    let isBelow := x.num * Nat.pow 10 (-guess).toNat < x.den * Nat.pow 10 guess.toNat
    let e := if isBelow then guess - 1 else guess
    let y := x.scaled (places - e)
    let n := roundHalfEven y.num y.den
    if n = Nat.pow 10 (places + 1) then (n / 10, e + 1) else (n, e)

/-- The quotient with one digit before the point, `places` behind it, and a power of ten. -/
def scientific (places : Nat) (x : Ratio) : String :=
  let (n, e) := significant places x
  let digits := padded (places + 1) n
  String.ofList (digits.take 1) ++ (if places = 0 then "" else "." ++ String.ofList (digits.drop 1)) ++
    (if e < 0 then "e-" else "e+") ++ String.ofList (padded 2 e.natAbs)

/-- The quotient with so many digits at most, positional from `10 ^ -4` up to that many digits. -/
def general (digits : Nat) (x : Ratio) : String :=
  let places := digits - 1
  let (_, e) := significant places x
  let bare (s : List Char) : List Char :=
    if s.contains '.' then ((s.reverse.dropWhile (· = '0')).dropWhile (· = '.')).reverse else s
  if -4 ≤ e ∧ e ≤ places then String.ofList (bare (fixed (places - e).toNat x).toList)
  else
    let s := (scientific places x).toList
    String.ofList (bare (s.takeWhile (· ≠ 'e')) ++ s.dropWhile (· ≠ 'e'))

end ScriptRunner.Decimal
