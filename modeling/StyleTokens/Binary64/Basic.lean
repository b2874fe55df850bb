/-!
Binary floating point numbers of 64 bits, by their exact values.

The magnitude of every finite number is a whole multiple of the least one, `2 ^ (-1074)`, so a
number is kept as that multiple; all arithmetic is exact and then rounded once.

* `Binary64`: not a number, an infinity, or a sign and a count of units;
* `nearestEven`: a quotient rounded to the nearest whole number, a half to the even one;
* `roundUnits`: a quotient of units rounded to 53 significant bits;
* `Binary64.ofRatio`: the number nearest to a fraction;
* `Binary64.ofDecimal`: the number nearest to a decimal;
* `Binary64.isWhole`, `Binary64.toInt`: whole values.
-/

namespace StyleTokens

/-- A 64-bit binary floating point number. The magnitude of a finite one is counted in units of
`2 ^ (-1074)`. -/
inductive Binary64 where
  | nan
  | infinite (negative : Bool)
  | finite (negative : Bool) (units : Nat)
  deriving DecidableEq, Repr

namespace Binary64

/-! ### Rounding -/

/-- The quotient rounded to the nearest whole number, a half to the even neighbour. -/
def nearestEven (num den : Nat) : Nat :=
  let q := num / den
  let r := 2 * (num % den)
  if r < den then q
  else if r = den then q + q % 2
  else q + 1

/-- The distance of neighbouring numbers at a magnitude: a number has 53 significant bits. -/
def spacing (units : Nat) : Nat := Nat.pow 2 (units.log2 - 52)

/-- The magnitude `num / den` rounded to the nearest one with 53 significant bits. -/
def roundUnits (num den : Nat) : Nat :=
  let s := spacing (num / den)
  nearestEven num (den * s) * s

/-- The units in one. -/
def one : Nat := Nat.pow 2 1074

/-- The first magnitude beyond the finite numbers. -/
def limit : Nat := Nat.pow 2 2098

/-- The number with a magnitude that is a quotient of units; beyond the limit it is infinite. -/
def ofUnits (negative : Bool) (num den : Nat) : Binary64 :=
  let u := roundUnits num den
  if u < limit then .finite negative u else .infinite negative

/-- The number nearest to the fraction `num / den`. -/
def ofRatio (negative : Bool) (num den : Nat) : Binary64 := ofUnits negative (num * one) den

/-- The number nearest to `coefficient * 10 ^ exponent`. Decimals above `10 ^ 310` are infinite and
those below `10 ^ (-330)` are zero, which spares their powers of ten. -/
def ofDecimal (negative : Bool) (coefficient : Nat) (exponent : Int) : Binary64 :=
  let top := exponent + (Nat.toDigits 10 coefficient).length
  if coefficient = 0 ∨ top < -330 then .finite negative 0
  else if 311 < top then .infinite negative
  else if 0 ≤ exponent then ofRatio negative (coefficient * Nat.pow 10 exponent.toNat) 1
  else ofRatio negative coefficient (Nat.pow 10 (-exponent).toNat)

/-! ### Whole values -/

/-- Is the number finite and whole? -/
def isWhole : Binary64 → Bool
  | .finite _ units => units % one == 0
  | _ => false

/-- The whole part of a finite number, with its sign. -/
def toInt : Binary64 → Int
  | .finite negative units =>
    if negative then -((units / one : Nat) : Int) else ((units / one : Nat) : Int)
  | _ => 0

/-- Is the number zero of either sign? -/
def isZero : Binary64 → Bool
  | .finite _ 0 => true
  | _ => false

/-- Have two numbers the same value? The zeros have, and nothing has the value of `nan`. -/
def sameValue : Binary64 → Binary64 → Bool
  | .infinite n, .infinite m => n == m
  | .finite n u, .finite m v => u == v && (n == m || u == 0)
  | _, _ => false

/-- Is a whole number the value of the number? -/
def hasValue (x : Binary64) (n : Int) : Bool := x.isWhole && x.toInt == n

/-! ### Basic facts -/

/-- Rounding a whole quotient gives it back. -/
theorem nearestEven_mul (q : Nat) {den : Nat} (h : 0 < den) : nearestEven (q * den) den = q := by
  simp [nearestEven, Nat.mul_div_cancel q h, Nat.mul_mod_left, h]

/-- A rounded quotient is at most one above the floor. -/
theorem nearestEven_le (num den : Nat) : nearestEven num den ≤ num / den + 1 := by
  unfold nearestEven
  grind

/-- A rounded quotient is at least the floor. -/
theorem le_nearestEven (num den : Nat) : num / den ≤ nearestEven num den := by
  unfold nearestEven
  grind

end Binary64

end StyleTokens
