import StyleTokens.Binary64.Shortest
import StyleTokens.Json.Basic
import StyleTokens.Text.Hex

/-!
Values written as text.

* `intText`: a whole number in decimal;
* `Json.numberText`: a number the way people write it, whole floating point values without a point;
* `Json.escapedChar`: a character inside a string; the text of a value is ASCII alone;
* `Json.writtenChars`, `Json.written`: a value on one line, with a blank after every comma and
  every colon;
* `Json.holdsLongNumber`: values with a whole number of more than `digitLimit` digits.

Whole numbers are written with all of their digits. A document holds none of more than `digitLimit`
digits, so the limit is met only by values that are made without one. Constants are not written for
them (`Output.javaScriptLine`); the other texts of values are unlimited here.
-/

namespace StyleTokens

/-- A whole number in decimal, with as many digits as it has. -/
def intText : Int → List Char
  | .ofNat n => Nat.toDigits 10 n
  | .negSucc n => '-' :: Nat.toDigits 10 (n + 1)

namespace Json

/-- The names of the values without digits in written documents. -/
def documentNames : Binary64.NumberNames := ⟨"NaN", "Infinity"⟩

/-- The names of the values without digits elsewhere. -/
def plainNames : Binary64.NumberNames := ⟨"nan", "inf"⟩

/-! ### Numbers as text -/

/-- A whole floating point value as a whole number, any other one in its shortest text. -/
def floatText (x : Binary64) : String :=
  if x.isWhole then String.ofList (intText x.toInt) else x.text plainNames

/-- The text of a number without a superfluous point; none for other values. -/
def numberText? : Json → Option String
  | .int n => some (String.ofList (intText n))
  | .float x => some (floatText x)
  | _ => none

/-! ### Strings -/

/-- The escape of a 16-bit unit. -/
def unitEscape (n : Nat) : List Char := ['\\', 'u'] ++ Text.hexDigits 4 n

/-- How a character is written inside a string. -/
def escapedChar (c : Char) : List Char :=
  if c = '"' then ['\\', '"']
  else if c = '\\' then ['\\', '\\']
  else if c = '\n' then ['\\', 'n']
  else if c = '\r' then ['\\', 'r']
  else if c = '\t' then ['\\', 't']
  else if c.toNat = 0x0C then ['\\', 'f']
  else if c.toNat = 0x08 then ['\\', 'b']
  else if 0x20 ≤ c.toNat ∧ c.toNat < 0x7F then [c]
  else if c.toNat < 0x10000 then unitEscape c.toNat
  else
    let n := c.toNat - 0x10000
    unitEscape (0xD800 + n / 0x400) ++ unitEscape (0xDC00 + n % 0x400)

/-- A text as a string literal. -/
def stringLiteral (cs : List Char) : List Char := '"' :: cs.flatMap escapedChar ++ ['"']

/-! ### Values -/

/-- The separator of entries. -/
def entrySeparator : List Char := [',', ' ']

mutual
/-- A value as text. -/
def writtenChars : Json → List Char
  | .null => ['n', 'u', 'l', 'l']
  | .bool true => ['t', 'r', 'u', 'e']
  | .bool false => ['f', 'a', 'l', 's', 'e']
  | .int n => intText n
  | .float x => (x.text documentNames).toList
  | .str s => stringLiteral s.toList
  | .arr items => '[' :: writtenItems items ++ [']']
  | .obj fields => '{' :: writtenFields fields ++ ['}']
/-- The items of a list. -/
def writtenItems : List Json → List Char
  | [] => []
  | [x] => writtenChars x
  | x :: xs => writtenChars x ++ entrySeparator ++ writtenItems xs
/-- The entries of an object. -/
def writtenFields : List (String × Json) → List Char
  | [] => []
  | [(k, x)] => stringLiteral k.toList ++ [':', ' '] ++ writtenChars x
  | (k, x) :: xs =>
    stringLiteral k.toList ++ [':', ' '] ++ writtenChars x ++ entrySeparator ++ writtenFields xs
end

/-- A value as text. -/
def written (v : Json) : String := String.ofList v.writtenChars

/-! ### Numbers with too many digits -/

/-- Has the number more digits than are written? -/
def isLong (n : Int) : Bool := digitLimit < (Nat.toDigits 10 n.natAbs).length

mutual
/-- Is there a whole number with too many digits in the value? -/
def holdsLongNumber : Json → Bool
  | .int n => isLong n
  | .arr items => itemsHoldLongNumber items
  | .obj fields => fieldsHoldLongNumber fields
  | _ => false
/-- Is there one in the items? -/
def itemsHoldLongNumber : List Json → Bool
  | [] => false
  | x :: xs => holdsLongNumber x || itemsHoldLongNumber xs
/-- Is there one in the values of the entries? -/
def fieldsHoldLongNumber : List (String × Json) → Bool
  | [] => false
  | (_, x) :: xs => holdsLongNumber x || fieldsHoldLongNumber xs
end

end Json

end StyleTokens
