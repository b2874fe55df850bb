import StyleTokens.Color.Basic
import StyleTokens.Json.Basic
import StyleTokens.Numeral
import StyleTokens.Text.Quoted

/-!
Reading colours.

* `ColorError`: why a literal is no colour;
* `Color.functionForm?`: the numerals of `rgb(…)` and `rgba(…)`;
* `Color.ofFunction`: the colour of the functional form;
* `Color.ofHex`: the colour of three, six or eight hexadecimal digits;
* `Color.read`: a literal as a colour, whatever white space and quote marks stand around it.
-/

namespace StyleTokens

/-- Why a literal is no colour. -/
inductive ColorError where
  | notText (kind : Json.Kind)
  | channelRange (form : String)
  | alphaRange (form : String)
  | notHex (text : String)
  | digitCount (text : String)
  | channelInfinite
  deriving DecidableEq, Repr

/-- The words for an error. -/
def ColorError.message : ColorError → String
  | .notText kind => "Color literal must be a string, got " ++ kind.name
  | .channelRange form => "rgba() channel out of range: " ++ Text.quoted form
  | .alphaRange form => "rgba() alpha must be a 0..1 fraction: " ++ Text.quoted form
  | .notHex text => "Not a hex color: " ++ Text.quoted text
  | .digitCount text => "Hex color must have 3, 6 or 8 digits: " ++ Text.quoted text
  | .channelInfinite => "cannot convert float infinity to integer"

namespace Color

/-! ### The functional form -/

/-- The text after white space. -/
def skipBlank (cs : List Char) : List Char := cs.dropWhile Text.isBlank

/-- A numeral between white space. -/
def readArgument? (cs : List Char) : Option (Numeral × List Char) := do
  let (x, rest) ← Numeral.read? (skipBlank cs)
  return (x, skipBlank rest)

/-- A comma and a numeral between white space. -/
def readNextArgument? (cs : List Char) : Option (Numeral × List Char) :=
  match cs with
  | ',' :: rest => readArgument? rest
  | _ => none

/-- The text after the name of the function, in either case, and its opening parenthesis. -/
def afterFunctionName? (cs : List Char) : Option (List Char) :=
  match cs.map Char.toLower with
  | 'r' :: 'g' :: 'b' :: 'a' :: '(' :: _ => some (cs.drop 5)
  | 'r' :: 'g' :: 'b' :: '(' :: _ => some (cs.drop 4)
  | _ => none

/-- The three channels and the alpha, if there is one, of a text of the functional form. -/
def functionForm? (cs : List Char) : Option (Numeral × Numeral × Numeral × Option Numeral) := do
  let (r, rest) ← readArgument? (← afterFunctionName? cs)
  let (g, rest) ← readNextArgument? rest
  let (b, rest) ← readNextArgument? rest
  match rest with
  | [')'] => return (r, g, b, none)
  | _ =>
    let (a, rest) ← readNextArgument? rest
    match rest with
    | [')'] => return (r, g, b, some a)
    | _ => none

/-- The number of halves in one. -/
def halfUnits : Nat := Binary64.one / 2

/-- A magnitude rounded to the nearest whole number, a half upwards, after its sum with a half is
rounded. -/
def halfUp (units : Nat) : Nat := Binary64.roundUnits (units + halfUnits) 1 / Binary64.one

/-- A channel rounded to a whole number. -/
def channel (x : Numeral) : Except ColorError Nat :=
  match x.value with
  | .finite _ units => .ok (halfUp units)
  | _ => .error .channelInfinite

/-- An alpha fraction as a channel, if it is at most one. -/
def alphaChannel? (x : Numeral) : Option Nat :=
  match x.value with
  | .finite _ units =>
    if units ≤ Binary64.one then some (halfUp (Binary64.roundUnits (units * 255) 1)) else none
  | _ => none

/-- The colour of the functional form. -/
def ofFunction (form : String) (r g b : Numeral) (a : Option Numeral) :
    Except ColorError Color := do
  let red ← channel r
  let green ← channel g
  let blue ← channel b
  if 255 < red ∨ 255 < green ∨ 255 < blue then throw (.channelRange form)
  match a with
  | none => return ⟨red, green, blue, 255⟩
  | some a =>
    match alphaChannel? a with
    | some alpha => return ⟨red, green, blue, alpha⟩
    | none => throw (.alphaRange form)

/-! ### Hexadecimal digits -/

/-- The colour of three, six or eight digits; three are doubled, and alpha comes last. -/
def ofDigits? : List Nat → Option Color
  | [r, g, b] => some ⟨(r * 17 : Nat), (g * 17 : Nat), (b * 17 : Nat), 255⟩
  | [r₁, r₂, g₁, g₂, b₁, b₂] =>
    some ⟨(r₁ * 16 + r₂ : Nat), (g₁ * 16 + g₂ : Nat), (b₁ * 16 + b₂ : Nat), 255⟩
  | [r₁, r₂, g₁, g₂, b₁, b₂, a₁, a₂] =>
    some ⟨(r₁ * 16 + r₂ : Nat), (g₁ * 16 + g₂ : Nat), (b₁ * 16 + b₂ : Nat),
      (a₁ * 16 + a₂ : Nat)⟩
  | _ => none

/-- The colour that hexadecimal digits write. -/
def ofHex (cs : List Char) : Except ColorError Color :=
  match cs.mapM Text.hexValue? with
  | none | some [] => .error (.notHex (String.ofList cs))
  | some digits =>
    match ofDigits? digits with
    | some c => .ok c
    | none => .error (.digitCount (String.ofList cs))

/-! ### Literals -/

/-- Is the character a quote mark? -/
def isQuote (c : Char) : Bool := c == '"' || c == '\''

/-- A literal without white space, quote marks and white space, in this order from the outside. -/
def core (cs : List Char) : List Char := Text.strip (Text.trim isQuote (Text.strip cs))

/-- A text as a colour. -/
def readChars (cs : List Char) : Except ColorError Color :=
  let s := core cs
  match functionForm? s with
  | some (r, g, b, a) => ofFunction (String.ofList s) r g b a
  | none =>
    match s with
    | '#' :: digits => ofHex digits
    | _ => ofHex s

/-- A value as a colour. -/
def read : Json → Except ColorError Color
  | .str s => readChars s.toList
  | v => .error (.notText v.kind)

end Color

end StyleTokens
