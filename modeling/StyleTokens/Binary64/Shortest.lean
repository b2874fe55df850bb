import StyleTokens.Binary64.Basic

/-!
The shortest decimal text of a floating point number.

* `Decimal`: a coefficient and a power of ten;
* `roundsBack`: does a decimal lie among the reals that round to a number?
* `Binary64.shortest`: the decimal with the fewest digits that rounds back to a number, of two the
  nearer one, and of two equally near the one with the even last digit;
* `NumberNames`, `Binary64.text`: the number written with those digits, positionally for
  decimal exponents from -4 to 15 and with a power of ten otherwise.
-/

namespace StyleTokens

/-- The value `coefficient * 10 ^ exponent`. -/
structure Decimal where
  coefficient : Nat
  exponent : Int
  deriving DecidableEq, Repr

namespace Decimal

/-- A power of ten as a fraction. -/
def power (e : Int) : Nat × Nat :=
  if 0 ≤ e then (Nat.pow 10 e.toNat, 1) else (1, Nat.pow 10 (-e).toNat)

/-- The same value without zeros at the end of the coefficient. -/
def reduce : (fuel : Nat) → Decimal → Decimal
  | 0, d => d
  | fuel + 1, d =>
    if d.coefficient ≠ 0 ∧ d.coefficient % 10 = 0
    then reduce fuel ⟨d.coefficient / 10, d.exponent + 1⟩
    else d

end Decimal

namespace Binary64

/-- Does the decimal round to the magnitude? The reals that do lie between the midpoints to the
two neighbours, and the midpoints belong to them when the significand is even. The lower
neighbour of a power of two is half as far as the upper one. -/
def roundsBack (units : Nat) (d : Decimal) : Bool :=
  let s := spacing units
  let below := if units = Nat.pow 2 52 * s ∧ 1 < s then s else 2 * s
  let (a, b) := Decimal.power d.exponent
  let value := d.coefficient * a * 4 * one
  let lo := (4 * units - below) * b
  let hi := (4 * units + 2 * s) * b
  if units / s % 2 = 0 then lo ≤ value && value ≤ hi else lo < value && value < hi

/-- The least power of ten above a positive magnitude. -/
def decimalPoint (units : Nat) : Int :=
  ((Nat.toDigits 10 (units * Nat.pow 10 330 / one)).length : Int) - 330

/-- The best decimal of a count of digits that rounds back to a positive magnitude. -/
def withDigits? (units count : Nat) : Option Decimal :=
  let e := decimalPoint units - count
  let (a, b) := Decimal.power e
  let q := units * b / (one * a)
  let r := units * b % (one * a)
  let low : Decimal := ⟨q, e⟩
  let high : Decimal := ⟨q + 1, e⟩
  match roundsBack units low, roundsBack units high with
  | true, true =>
    if 2 * r < one * a ∨ (2 * r = one * a ∧ q % 2 = 0) then some low else some high
  | true, false => some low
  | false, true => some high
  | false, false => none

/-- The decimal with the fewest digits that rounds back to a magnitude. Seventeen digits always
suffice. -/
def shortest (units : Nat) : Decimal :=
  if units = 0 then ⟨0, 0⟩
  else ((List.range 17).findSome? fun n => withDigits? units (n + 1)).getD ⟨units, 0⟩

/-- How a format spells the values that have no digits. -/
structure NumberNames where
  nan : String
  infinity : String

/-- A decimal coefficient of at least one digit, written with the point after `point` digits, or
with an exponent where that would be long. -/
def layout (digits : List Char) (point : Int) : List Char :=
  if point < -3 ∨ 16 < point then
    let e := point - 1
    let size := Nat.toDigits 10 e.natAbs
    let fraction := if digits.length ≤ 1 then [] else '.' :: digits.drop 1
    digits.take 1 ++ fraction ++ ['e', if e < 0 then '-' else '+'] ++
      List.replicate (2 - size.length) '0' ++ size
  else if point ≤ 0 then
    ['0', '.'] ++ List.replicate (-point).toNat '0' ++ digits
  else if (digits.length : Int) ≤ point then
    digits ++ List.replicate (point - digits.length).toNat '0' ++ ['.', '0']
  else digits.take point.toNat ++ '.' :: digits.drop point.toNat

/-- The digits of a magnitude, laid out. -/
def magnitudeText (units : Nat) : List Char :=
  if units = 0 then ['0', '.', '0']
  else
    let d := (shortest units).reduce 20
    let digits := Nat.toDigits 10 d.coefficient
    layout digits (digits.length + d.exponent)

/-- The number in its shortest text; a whole value keeps one decimal. -/
def text (names : NumberNames) (x : Binary64) : String :=
  match x with
  | .nan => names.nan
  | .infinite negative => (if negative then "-" else "") ++ names.infinity
  | .finite negative units =>
    (if negative then "-" else "") ++ String.ofList (magnitudeText units)

end Binary64

end StyleTokens
