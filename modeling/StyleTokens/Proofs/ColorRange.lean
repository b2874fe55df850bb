import StyleTokens.Proofs.RenderedColors
import StyleTokens.Proofs.Rounding

/-!
The channels of the colours that are read.

* `Color.roundUnits_le_halves`, `Color.halfUp_le`: magnitudes up to 255 do not leave the range when
  they are rounded, neither as numbers nor to whole ones;
* `Color.alphaChannel?_le`: a fraction that is accepted as alpha is a channel in the range;
* `Color.ofFunction_eq`: the colour of the functional form in steps;
* `Color.isInRange_of_read`: the channels of every colour that is read are in the range;
* `Color.read_canonical`: such a colour is read again from its eight digits.
-/

namespace StyleTokens.Color

/-! ### Rounding up to the end of the range -/

section Rounded

open Binary64

lemma one_eq_halves : one = 2 * halfUnits := by decide +kernel

lemma halfUnits_eq : halfUnits = 2 ^ 1029 * 2 ^ 44 := by decide +kernel

lemma two_pow_eq_halves : 2 ^ (1029 + 53) = 512 * halfUnits := by decide +kernel

/-- Up to the end of the range every half is a number with 53 significant bits, and no magnitude is
rounded past one. -/
lemma roundUnits_le_halves {units halves : Nat} (h : units ≤ halves * halfUnits)
    (hrange : halves ≤ 511) : roundUnits units 1 ≤ halves * halfUnits := by
  have hpos : 0 < halfUnits := by decide +kernel
  have hlt : units < 2 ^ (1029 + 53) := by
    have hle := Nat.mul_le_mul_right halfUnits hrange
    rw [two_pow_eq_halves]
    omega
  refine roundUnits_le Nat.one_pos ?_ (by rwa [Nat.mul_one])
  rw [Nat.div_one]
  exact (spacing_dvd hlt).trans (Dvd.dvd.mul_left ⟨_, halfUnits_eq⟩ halves)

/-- Magnitudes up to 255 are rounded to whole numbers up to 255. -/
lemma halfUp_le {units : Nat} (h : units ≤ 255 * one) : halfUp units ≤ 255 := by
  have hone := one_eq_halves
  have hpos : 0 < one := by decide +kernel
  have hrounded : roundUnits (units + halfUnits) 1 ≤ 511 * halfUnits :=
    roundUnits_le_halves (by omega) le_rfl
  rw [halfUp, ← Nat.lt_succ_iff, Nat.div_lt_iff_lt_mul hpos]
  omega

/-- A fraction that is accepted as alpha is a channel in the range. -/
lemma alphaChannel?_le {x : Numeral} {n : Nat} (h : alphaChannel? x = some n) : n ≤ 255 := by
  rw [alphaChannel?] at h
  split at h
  · next units _ =>
      split at h
      · next hfraction =>
          cases h
          have hone := one_eq_halves
          have hproduct : roundUnits (units * 255) 1 ≤ 510 * halfUnits :=
            roundUnits_le_halves (by omega) (by decide)
          exact halfUp_le (by omega)
      · cases h
  · cases h

end Rounded

/-! ### The functional form -/

section Function

variable {a : Option Numeral}

/-- The alpha of a functional form. Without one the colour is opaque. -/
def alphaOf? : Option Numeral → Option Nat
  | none => some 255
  | some a => alphaChannel? a

lemma alphaOf?_le {n : Nat} (h : alphaOf? a = some n) : n ≤ 255 := by
  cases a with
  | none =>
      cases h
      exact le_rfl
  | some a => exact alphaChannel?_le h

/-- The colour of the functional form in steps: three channels, their range, and alpha. -/
lemma ofFunction_eq (form : String) (r g b : Numeral) (a : Option Numeral) :
    ofFunction form r g b a = channel r >>= fun red => channel g >>= fun green =>
      channel b >>= fun blue =>
        if 255 < red ∨ 255 < green ∨ 255 < blue then .error (.channelRange form)
        else match alphaOf? a with
          | some alpha => .ok ⟨red, green, blue, alpha⟩
          | none => .error (.alphaRange form) := by
  cases a <;> rfl

end Function

/-! ### Colours in the range -/

section Range

variable {c : Color}

/-- The channels of a colour in functional form are in the range. -/
lemma isInRange_of_ofFunction {form : String} {r g b : Numeral} {a : Option Numeral}
    (h : ofFunction form r g b a = .ok c) : c.IsInRange := by
  rw [ofFunction_eq] at h
  obtain ⟨red, -, h⟩ := exists_of_bind_eq_ok h
  obtain ⟨green, -, h⟩ := exists_of_bind_eq_ok h
  obtain ⟨blue, -, h⟩ := exists_of_bind_eq_ok h
  split at h
  · cases h
  · next hle =>
      simp only [not_or, Nat.not_lt] at hle
      obtain ⟨hred, hgreen, hblue⟩ := hle
      split at h
      · next alpha halpha =>
          cases h
          exact isInRange_of_le hred hgreen hblue (alphaOf?_le halpha)
      · cases h

/-- The channels of a colour in digits are in the range. -/
lemma isInRange_of_ofHex {digits : List Char} (h : ofHex digits = .ok c) : c.IsInRange := by
  obtain ⟨c', hc', hrange, -⟩ := ofHex_of_isHexDigits (isHexDigits_of_ofHex h)
  rw [h] at hc'
  cases hc'
  exact hrange

/-- **The channels of every colour that is read are in the range.** -/
theorem isInRange_of_read {v : Json} (h : read v = .ok c) : c.IsInRange := by
  cases v with
  | str s =>
      cases hform : functionForm? (core s.toList) with
      | none =>
          rw [read_of_functionForm?_eq_none hform] at h
          exact isInRange_of_ofHex h
      | some form =>
          rw [read_of_functionForm?_eq_some hform] at h
          exact isInRange_of_ofFunction h
  | _ => cases h

/-- **Writing a colour that was read loses nothing.** Its channels are in the range, so that nothing is
clamped, and it is read again from its eight digits. -/
theorem read_canonical {v : Json} (h : read v = .ok c) :
    (∀ channel ∈ [c.red, c.green, c.blue, c.alpha], 0 ≤ channel ∧ channel ≤ 255) ∧
      c.clamped = c ∧ read (.str ("#" ++ c.rgbaHex)) = .ok c := by
  have hrange := isInRange_of_read h
  have hclamped := hrange.clamped_eq
  exact ⟨hrange, hclamped, (read_rgbaHex c).trans (congrArg Except.ok hclamped)⟩

/-- A channel that is just not rounded up to 256, one in digits of another script, and an alpha that
is above one but has no number of its own. -/
theorem read_canonical_rounded :
    read (.str "RGBA(255.49, \u0661\u0666, .5, 1.00000000000000001)") = .ok ⟨255, 16, 1, 255⟩ ∧
      read (.str ("#" ++ rgbaHex ⟨255, 16, 1, 255⟩)) = .ok ⟨255, 16, 1, 255⟩ := by
  have hread : read (.str "RGBA(255.49, \u0661\u0666, .5, 1.00000000000000001)")
      = .ok ⟨255, 16, 1, 255⟩ := by
    decide +kernel
  obtain ⟨-, -, hagain⟩ := read_canonical hread
  exact ⟨hread, hagain⟩

end Range

end StyleTokens.Color
