import StyleTokens.Json.Basic
import StyleTokens.Text.Digit
import StyleTokens.Text.Hex

/-!
Reading values from text.

* `Json.Fault`, `Json.SyntaxError`, `Json.TextError`: what is wrong and where;
* `Json.readString`, `Json.readNumber`, `Json.readValue`: readers of a prefix, which give the value
  and the rest of the text, or say why they stop;
* `Json.read`: a whole text as a value.

Numbers may be the words `NaN`, `Infinity` and `-Infinity`. A number with a fraction or an exponent
is a floating point number and any other one a whole number, which has at most `digitLimit` digits:
one with more stops the reading, whatever follows it.

Strings are texts of Unicode characters, and half of a surrogate pair is none. The escape of a half
without the other one is read as U+0000, so that documents with such escapes are beyond this reader.
-/

namespace StyleTokens.Json

/-- What can be wrong with a text. -/
inductive Fault where
  | valueExpected
  | keyExpected
  | colonExpected
  | commaExpected
  | extraText
  | stringOpen
  | controlCharacter
  | escapeUnknown
  | unitEscapeMalformed
  | byteOrderMark
  deriving DecidableEq, Repr

/-- The words for a fault. -/
def Fault.message : Fault → String
  | .valueExpected => "Expecting value"
  | .keyExpected => "Expecting property name enclosed in double quotes"
  | .colonExpected => "Expecting ':' delimiter"
  | .commaExpected => "Expecting ',' delimiter"
  | .extraText => "Extra data"
  | .stringOpen => "Unterminated string starting at"
  | .controlCharacter => "Invalid control character at"
  | .escapeUnknown => "Invalid \\escape"
  | .unitEscapeMalformed => "Invalid \\uXXXX escape"
  | .byteOrderMark => "Unexpected UTF-8 BOM (decode using utf-8-sig)"

/-- A fault and the characters before it. -/
structure SyntaxError where
  fault : Fault
  before : List Char
  deriving Repr

/-- The words for a fault with its line, its column and its offset; lines and columns count from
one, offsets from zero. -/
def SyntaxError.message (e : SyntaxError) : String :=
  let line := e.before.count '\n' + 1
  let column := (e.before.reverse.takeWhile (· ≠ '\n')).length + 1
  e.fault.message ++ ": line " ++ toString line ++ " column " ++ toString column ++
    " (char " ++ toString e.before.length ++ ")"

/-- Why a text is not read as a value: it is not the text of one, or it has a whole number of more
digits than are read. -/
inductive TextError where
  | malformed (cause : SyntaxError)
  | longNumber (digits : Nat)
  deriving Repr

/-- The words for an error. -/
def TextError.message : TextError → String
  | .malformed cause => cause.message
  | .longNumber digits => longNumberMessage (some digits)

/-- Why reading stops: a fault and the text that begins at it, or a whole number of too many digits.
-/
inductive Stop where
  | fault (fault : Fault) (rest : List Char)
  | longNumber (digits : Nat)

/-- Is the character white space between the parts of a text? -/
def isSpace (c : Char) : Bool := c == ' ' || c == '\t' || c == '\n' || c == '\r'

/-- The text after white space. -/
def skipSpace (cs : List Char) : List Char := cs.dropWhile isSpace

/-! ### Strings -/

/-- The number of four hexadecimal digits. -/
def unit? (a b c d : Char) : Option Nat := do
  let a ← Text.hexValue? a
  let b ← Text.hexValue? b
  let c ← Text.hexValue? c
  let d ← Text.hexValue? d
  return ((a * 16 + b) * 16 + c) * 16 + d

/-- The character of a one-letter escape. -/
def simpleEscape? (c : Char) : Option Char :=
  if c = '"' ∨ c = '\\' ∨ c = '/' then some c
  else if c = 'b' then some (Char.ofNat 0x08)
  else if c = 'f' then some (Char.ofNat 0x0C)
  else if c = 'n' then some '\n'
  else if c = 'r' then some '\r'
  else if c = 't' then some '\t'
  else none

/-- Is the unit the first of a pair? -/
def isHighUnit (n : Nat) : Bool := 0xD800 ≤ n && n < 0xDC00

/-- Is the unit the second of a pair? -/
def isLowUnit (n : Nat) : Bool := 0xDC00 ≤ n && n < 0xE000

/-- The code point of a pair of units. -/
def joinUnits (high low : Nat) : Nat := 0x10000 + (high - 0xD800) * 0x400 + (low - 0xDC00)

/-- The second unit of a pair, if a unit escape follows that is one. A unit escape that is malformed
stops the reading; one at the very end of the text is not looked at. -/
def readLowUnit (cs : List Char) : Except Stop (Option Nat × List Char) :=
  match cs with
  | b :: u :: k₁ :: k₂ :: k₃ :: k₄ :: rest =>
    if b = '\\' ∧ u = 'u' ∧ rest ≠ [] then
      match unit? k₁ k₂ k₃ k₄ with
      | none => .error (.fault .unitEscapeMalformed (cs.drop 1))
      | some n => .ok (if isLowUnit n then (some n, rest) else (none, cs))
    else .ok (none, cs)
  | _ => .ok (none, cs)

/-- The character of a unit escape, after its backslash. A pair of unit escapes is one character,
and half of a pair alone is read as U+0000; the text cannot end with the escape. -/
def readUnitEscape (cs : List Char) : Except Stop (Char × List Char) :=
  match cs with
  | _ :: h₁ :: h₂ :: h₃ :: h₄ :: more =>
    match unit? h₁ h₂ h₃ h₄ with
    | none => .error (.fault .unitEscapeMalformed cs)
    | some n =>
      if more = [] then .error (.fault .unitEscapeMalformed cs)
      else if isHighUnit n then do
        let (low, rest) ← readLowUnit more
        return (Char.ofNat (match low with
          | some m => joinUnits n m
          | none => n), rest)
      else .ok (Char.ofNat n, more)
  | _ => .error (.fault .unitEscapeMalformed cs)

/-- One character inside a string, or none at its closing mark. The text `start` is the one that
begins with the opening mark. -/
def readChar (start : List Char) (cs : List Char) : Except Stop (Option Char × List Char) :=
  match cs with
  | [] => .error (.fault .stringOpen start)
  | c :: rest =>
    if c = '"' then .ok (none, rest)
    else if c = '\\' then
      match rest with
      | [] => .error (.fault .stringOpen start)
      | e :: rest' =>
        if e = 'u' then do
          let (d, out) ← readUnitEscape rest
          return (some d, out)
        else match simpleEscape? e with
          | none => .error (.fault .escapeUnknown cs)
          | some d => .ok (some d, rest')
    else if c.toNat ≤ 0x1F then .error (.fault .controlCharacter cs)
    else .ok (some c, rest)

/-- The characters of a string up to its closing mark, at most `count` of them. -/
def readCharsUpTo (start : List Char) : (count : Nat) → List Char →
    Except Stop (List Char × List Char)
  | 0, cs => .error (.fault .stringOpen cs)
  | count + 1, cs => do
    match ← readChar start cs with
    | (none, rest) => return ([], rest)
    | (some c, rest) => do
      let (s, out) ← readCharsUpTo start count rest
      return (c :: s, out)

/-- A string at the front of a text, after its opening mark. The text `start` is the one that begins
with that mark. A string has no more characters than its text. -/
def readString (start cs : List Char) : Except Stop (List Char × List Char) :=
  readCharsUpTo start (cs.length + 1) cs

/-! ### Numbers -/

/-- The number that ASCII digits write. -/
def digitsValue (cs : List Char) : Nat :=
  cs.foldl (fun n c => n * 10 + (Text.asciiDigit? c).getD 0) 0

/-- The digits at the front of a text, and the rest. -/
def spanDigits (cs : List Char) : List Char × List Char :=
  (cs.takeWhile Text.isAsciiDigit, cs.dropWhile Text.isAsciiDigit)

/-- The whole part of a number: a zero alone, or digits that do not begin with a zero. -/
def readWhole (cs : List Char) : List Char × List Char :=
  match cs with
  | '0' :: rest => (['0'], rest)
  | _ => spanDigits cs

/-- The fraction of a number, if a digit follows the point. -/
def readFraction (cs : List Char) : List Char × List Char :=
  match cs with
  | '.' :: rest =>
    let (digits, out) := spanDigits rest
    if digits = [] then ([], cs) else (digits, out)
  | _ => ([], cs)

/-- The exponent of a number, if digits follow its mark and its sign. -/
def readExponent (cs : List Char) : Option Int × List Char :=
  match cs with
  | c :: rest =>
    if c = 'e' ∨ c = 'E' then
      let (negative, unsigned) := match rest with
        | '-' :: r => (true, r)
        | '+' :: r => (false, r)
        | r => (false, r)
      let (digits, out) := spanDigits unsigned
      if digits = [] then (none, cs)
      else
        let n : Int := digitsValue digits
        (some (if negative then -n else n), out)
    else (none, cs)
  | [] => (none, [])

/-- The number that parts of a numeral write, unless it is whole and has too many digits. -/
def numberOf (negative : Bool) (whole fraction : List Char) (exponent : Option Int) :
    Except Stop Json :=
  if fraction = [] ∧ exponent = none then
    if digitLimit < whole.length then .error (.longNumber whole.length)
    else
      let n : Int := digitsValue whole
      .ok (.int (if negative then -n else n))
  else
    .ok (.float (.ofDecimal negative (digitsValue (whole ++ fraction))
      (exponent.getD 0 - fraction.length)))

/-- A number at the front of a text. -/
def readNumber (cs : List Char) : Except Stop (Json × List Char) :=
  let (negative, unsigned) := match cs with
    | '-' :: r => (true, r)
    | r => (false, r)
  let (whole, afterWhole) := readWhole unsigned
  if whole = [] then .error (.fault .valueExpected cs)
  else
    let (fraction, afterFraction) := readFraction afterWhole
    let (exponent, rest) := readExponent afterFraction
    (numberOf negative whole fraction exponent).map (·, rest)

/-! ### Values -/

/-- A word or a number at the front of a text. -/
def readScalar : List Char → Except Stop (Json × List Char)
  | 'n' :: 'u' :: 'l' :: 'l' :: rest => .ok (.null, rest)
  | 't' :: 'r' :: 'u' :: 'e' :: rest => .ok (.bool true, rest)
  | 'f' :: 'a' :: 'l' :: 's' :: 'e' :: rest => .ok (.bool false, rest)
  | 'N' :: 'a' :: 'N' :: rest => .ok (.float .nan, rest)
  | 'I' :: 'n' :: 'f' :: 'i' :: 'n' :: 'i' :: 't' :: 'y' :: rest =>
    .ok (.float (.infinite false), rest)
  | '-' :: 'I' :: 'n' :: 'f' :: 'i' :: 'n' :: 'i' :: 't' :: 'y' :: rest =>
    .ok (.float (.infinite true), rest)
  | cs => readNumber cs

mutual
/-- A value at the front of a text without leading white space. The first argument bounds the
number of steps. -/
def readValue : Nat → List Char → Except Stop (Json × List Char)
  | 0, cs => .error (.fault .valueExpected cs)
  | fuel + 1, cs =>
    match cs with
    | [] => .error (.fault .valueExpected cs)
    | c :: rest =>
      if c = '"' then do
        let (s, out) ← readString cs rest
        return (.str (String.ofList s), out)
      else if c = '[' then
        match skipSpace rest with
        | ']' :: out => .ok (.arr [], out)
        | inner => do
          let (items, out) ← readItems fuel inner
          return (.arr items, out)
      else if c = '{' then
        match skipSpace rest with
        | '}' :: out => .ok (.obj [], out)
        | inner => do
          let (pairs, out) ← readPairs fuel inner
          return (.obj (Fields.ofPairs pairs), out)
      else readScalar cs
/-- The items of a list up to its closing bracket. -/
def readItems : Nat → List Char → Except Stop (List Json × List Char)
  | 0, cs => .error (.fault .valueExpected cs)
  | fuel + 1, cs => do
    let (x, afterItem) ← readValue fuel cs
    match skipSpace afterItem with
    | ']' :: out => return ([x], out)
    | ',' :: next => do
      let (xs, out) ← readItems fuel (skipSpace next)
      return (x :: xs, out)
    | other => .error (.fault .commaExpected other)
/-- The entries of an object up to its closing brace. -/
def readPairs : Nat → List Char → Except Stop (List (String × Json) × List Char)
  | 0, cs => .error (.fault .keyExpected cs)
  | fuel + 1, cs =>
    match cs with
    | '"' :: rest => do
      let (key, afterKey) ← readString cs rest
      match skipSpace afterKey with
      | ':' :: afterColon => do
        let (x, afterValue) ← readValue fuel (skipSpace afterColon)
        match skipSpace afterValue with
        | '}' :: out => return ([(String.ofList key, x)], out)
        | ',' :: next => do
          let (xs, out) ← readPairs fuel (skipSpace next)
          return ((String.ofList key, x) :: xs, out)
        | other => .error (.fault .commaExpected other)
      | other => .error (.fault .colonExpected other)
    | _ => .error (.fault .keyExpected cs)
end

/-- A whole text as a value. Two steps for every character are enough. -/
def readAll (cs : List Char) : Except Stop Json :=
  match cs with
  | '\uFEFF' :: _ => .error (.fault .byteOrderMark cs)
  | _ => do
    let (x, rest) ← readValue (2 * cs.length + 2) (skipSpace cs)
    match skipSpace rest with
    | [] => return x
    | extra => .error (.fault .extraText extra)

/-- A whole text as a value. -/
def readChars (cs : List Char) : Except TextError Json :=
  match readAll cs with
  | .ok x => .ok x
  | .error (.fault fault rest) => .error (.malformed ⟨fault, cs.take (cs.length - rest.length)⟩)
  | .error (.longNumber digits) => .error (.longNumber digits)

/-- A whole text as a value. -/
def read (s : String) : Except TextError Json := readChars s.toList

end StyleTokens.Json
