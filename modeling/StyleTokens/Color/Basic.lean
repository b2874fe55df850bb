import StyleTokens.Text.Hex

/-!
Colours.

* `Color`: red, green, blue and alpha; an alpha of 255 is opaque;
* `Color.rgbaHex`, `Color.argbHex`, `Color.rgbHex`: a colour as pairs of upper case digits;
* `Color.alphaHundredths`: the opacity as a count of hundredths;
* `Color.clamped`: every channel moved into the range from 0 to 255.
-/

namespace StyleTokens

/-- A colour by its channels. A channel outside the range from 0 to 255 stands for the nearer end of
the range. -/
structure Color where
  red : Int
  green : Int
  blue : Int
  alpha : Int := 255
  deriving DecidableEq, Repr

namespace Color

/-- The value of a channel in the range from 0 to 255. -/
def clamp (channel : Int) : Nat := (min 255 (max 0 channel)).toNat

/-- The colour with its channels in the range. -/
def clamped (c : Color) : Color := ⟨clamp c.red, clamp c.green, clamp c.blue, clamp c.alpha⟩

/-- A channel as two digits. -/
def hexPair (channel : Int) : List Char :=
  let n := clamp channel
  [Text.upperHexDigit (n / 16), Text.upperHexDigit (n % 16)]

/-- Channels as pairs of digits. -/
def hexOf (channels : List Int) : String := String.ofList (channels.flatMap hexPair)

/-- The colour with alpha last. -/
def rgbaHex (c : Color) : String := hexOf [c.red, c.green, c.blue, c.alpha]

/-- The colour with alpha first. -/
def argbHex (c : Color) : String := hexOf [c.alpha, c.red, c.green, c.blue]

/-- The colour without alpha. -/
def rgbHex (c : Color) : String := hexOf [c.red, c.green, c.blue]

/-- Is the colour opaque? -/
def isSolid (c : Color) : Bool := clamp c.alpha == 255

/-- The opacity in hundredths, rounded to the nearest one. No channel is halfway between two. -/
def alphaHundredths (c : Color) : Nat := (clamp c.alpha * 200 + 255) / 510

/-- The opacity with two decimals. -/
def alphaFixed (c : Color) : String :=
  let n := c.alphaHundredths
  String.ofList ((Nat.toDigits 10 (n / 100)) ++
    ['.', Nat.digitChar (n / 10 % 10), Nat.digitChar (n % 10)])

/-- The opacity with as few decimals as possible, but at least one. -/
def alphaText (c : Color) : String :=
  let n := c.alphaHundredths
  String.ofList ((Nat.toDigits 10 (n / 100)) ++ '.' :: Nat.digitChar (n / 10 % 10) ::
    (if n % 10 = 0 then [] else [Nat.digitChar (n % 10)]))

theorem clamp_le (channel : Int) : clamp channel ≤ 255 := by
  unfold clamp
  omega

/-- A channel in the range stands for itself. -/
theorem clamp_eq {channel : Int} (h₀ : 0 ≤ channel) (h₁ : channel ≤ 255) :
    (clamp channel : Int) = channel := by
  unfold clamp
  omega

end Color

end StyleTokens
