import StyleTokens.Binary64.Basic
import StyleTokens.Text.Blank
import StyleTokens.Text.Digit

/-!
Decimal numerals, in the digits of any script.

* `Numeral`: the digits before and after the point;
* `Numeral.read?`: the numeral at the front of a text;
* `Numeral.value`: the floating point number nearest to it;
* `readLeadingNumber?`: the number, with sign and exponent, that a text begins with.
-/

namespace StyleTokens

/-- The digits of a numeral before and after its point. -/
structure Numeral where
  whole : List Char
  fraction : List Char
  deriving DecidableEq, Repr

namespace Numeral

/-- The number that decimal digits write. -/
def digitsValue (digits : List Char) : Nat :=
  digits.foldl (fun n c => n * 10 + (Text.decimalValue? c).getD 0) 0

/-- The decimal digits at the front of a text, and the rest. -/
def spanDigits (cs : List Char) : List Char × List Char :=
  (cs.takeWhile Text.isDecimal, cs.dropWhile Text.isDecimal)

/-- The numeral at the front of a text and the rest: digits with an optional fraction, or a fraction
with at least one digit. -/
def read? (cs : List Char) : Option (Numeral × List Char) :=
  let (whole, rest) := spanDigits cs
  match rest with
  | '.' :: afterPoint =>
    let (fraction, out) := spanDigits afterPoint
    if whole = [] ∧ fraction = [] then none else some (⟨whole, fraction⟩, out)
  | _ => if whole = [] then none else some (⟨whole, []⟩, rest)

/-- The number nearest to the numeral times a power of ten. -/
def scaled (negative : Bool) (x : Numeral) (exponent : Int) : Binary64 :=
  .ofDecimal negative (digitsValue (x.whole ++ x.fraction)) (exponent - x.fraction.length)

/-- The number nearest to the numeral. -/
def value (x : Numeral) : Binary64 := x.scaled false 0

end Numeral

/-- The sign at the front of a text, if there is one. -/
def spanSign (cs : List Char) : Bool × List Char :=
  match cs with
  | '-' :: rest => (true, rest)
  | '+' :: rest => (false, rest)
  | _ => (false, cs)

/-- The exponent at the front of a text: its mark, a sign and at least one digit. Without a digit
there is none, and nothing is read. -/
def readExponent (cs : List Char) : Int × List Char :=
  match cs with
  | c :: rest =>
    if c = 'e' ∨ c = 'E' then
      let (negative, unsigned) := spanSign rest
      let (digits, out) := Numeral.spanDigits unsigned
      if digits = [] then (0, cs)
      else
        let n : Int := Numeral.digitsValue digits
        (if negative then -n else n, out)
    else (0, cs)
  | [] => (0, [])

/-- The number that a text begins with after white space, whatever follows it. -/
def readLeadingNumber? (cs : List Char) : Option Binary64 := do
  let (negative, unsigned) := spanSign (cs.dropWhile Text.isBlank)
  let (numeral, rest) ← Numeral.read? unsigned
  return numeral.scaled negative (readExponent rest).1

end StyleTokens
