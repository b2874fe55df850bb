/-!
Hexadecimal digits.

* `hexDigit`, `upperHexDigit`: the digit of a number below sixteen;
* `hexDigits`: a number written with a fixed count of digits;
* `hexValue?`: the value of a digit of either case.
-/

namespace StyleTokens.Text

/-- The digit of a number below sixteen, in lower case. -/
def hexDigit (n : Nat) : Char := if n < 10 then Char.ofNat (0x30 + n) else Char.ofNat (0x57 + n)

/-- The digit of a number below sixteen, in upper case. -/
def upperHexDigit (n : Nat) : Char :=
  if n < 10 then Char.ofNat (0x30 + n) else Char.ofNat (0x37 + n)

/-- The last `width` hexadecimal digits of a number, in lower case. -/
def hexDigits : (width : Nat) → Nat → List Char
  | 0, _ => []
  | width + 1, n => hexDigits width (n / 16) ++ [hexDigit (n % 16)]

/-- The value of an ASCII hexadecimal digit. -/
def hexValue? (c : Char) : Option Nat :=
  let n := c.toNat
  if 0x30 ≤ n ∧ n ≤ 0x39 then some (n - 0x30)
  else if 0x41 ≤ n ∧ n ≤ 0x46 then some (n - 0x37)
  else if 0x61 ≤ n ∧ n ≤ 0x66 then some (n - 0x57)
  else none

/-- The value of a hexadecimal digit is below sixteen. -/
theorem hexValue?_lt {c : Char} {d : Nat} (h : hexValue? c = some d) : d < 16 := by
  unfold hexValue? at h
  grind

/-- Reading a written digit gives the number back, in either case. -/
theorem hexValue?_hexDigit : ∀ d : Fin 16,
    hexValue? (hexDigit d) = some d.val ∧ hexValue? (upperHexDigit d) = some d.val := by
  decide

end StyleTokens.Text
