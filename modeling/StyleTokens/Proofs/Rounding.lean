import Mathlib.Tactic.Ring
import StyleTokens.Numeral

/-!
Rounding to floating point numbers.

* `nearestEven_le_of_le`, `le_nearestEven_of_le`, `even_le_nearestEven_iff`: a rounded quotient and
  whole numbers, and the quotients from which an even one is reached;
* `spacing_dvd`: powers of two that neighbouring numbers divide;
* `roundUnits_le`, `le_roundUnits`: rounding does not lead past a number that is not rounded itself;
* `two_pow_le_roundUnits_iff`: the quotients that are rounded to a power of two or beyond;
* `Numeral.IsTooGreat`, `Numeral.value_eq_infinite_iff`: the numerals that stand for no finite number
  are those from halfway between the greatest one and the power of two behind it.
-/

namespace StyleTokens

namespace Binary64

/-! ### Quotients -/

section Quotients

variable {num den q : Nat} (hden : 0 < den)
include hden

/-- A quotient that is at most a whole number is rounded to at most that number. -/
lemma nearestEven_le_of_le (h : num ≤ q * den) : nearestEven num den ≤ q := by
  have hfloor : num / den ≤ q := Nat.div_le_of_le_mul (by rwa [Nat.mul_comm])
  rcases Nat.lt_or_eq_of_le hfloor with hlt | heq
  · exact (nearestEven_le num den).trans hlt
  · have hle : q * den ≤ num := heq ▸ Nat.div_mul_le_self num den
    rw [Nat.le_antisymm h hle, nearestEven_mul q hden]

/-- A quotient that is at least a whole number is rounded to at least that number. -/
lemma le_nearestEven_of_le (h : q * den ≤ num) : q ≤ nearestEven num den :=
  ((Nat.le_div_iff_mul_le hden).mpr h).trans (le_nearestEven num den)

/-- An even number is reached from halfway below it. -/
lemma even_le_nearestEven_iff (heven : q % 2 = 0) :
    q ≤ nearestEven num den ↔ (2 * q - 1) * den ≤ 2 * num := by
  have hnum : num / den * den + num % den = num := Nat.div_add_mod' num den
  have hrem : num % den < den := Nat.mod_lt num hden
  have hhalf : (2 * q - 1) * den = 2 * (q * den) - den := by
    rw [Nat.sub_mul, Nat.one_mul, Nat.mul_assoc]
  rcases Nat.lt_trichotomy (num / den + 1) q with hlow | hjust | hhigh
  · have hmul : (num / den + 2) * den ≤ q * den := Nat.mul_le_mul_right den hlow
    rw [Nat.add_mul] at hmul
    have hup := nearestEven_le num den
    exact iff_of_false (by omega) (by omega)
  · -- the floor is odd, so halfway above it is rounded up
    have hmul : q * den = num / den * den + den := by rw [← hjust, Nat.add_mul, Nat.one_mul]
    rw [hhalf, nearestEven]
    split
    · omega
    · split <;> omega
  · have hmul : q * den ≤ num / den * den := Nat.mul_le_mul_right den (by omega)
    exact iff_of_true (le_nearestEven_of_le hden (by omega)) (by omega)

end Quotients

/-! ### Magnitudes -/

/-- Numbers with 53 significant bits below a power of two are multiples of what is left of it. -/
lemma spacing_dvd {units k : Nat} (h : units < 2 ^ (k + 53)) : spacing units ∣ 2 ^ k := by
  refine Nat.pow_dvd_pow 2 ?_
  by_cases hzero : units = 0
  · subst hzero
    exact Nat.zero_le k
  · have hlog := (Nat.log2_lt hzero).mpr h
    omega

section Magnitudes

variable {num den bound : Nat} (hden : 0 < den)
include hden

/-- A magnitude is not rounded to more than a number that it does not exceed. -/
lemma roundUnits_le (hbound : spacing (num / den) ∣ bound) (h : num ≤ bound * den) :
    roundUnits num den ≤ bound := by
  obtain ⟨m, rfl⟩ := hbound
  have hpos : 0 < spacing (num / den) := Nat.two_pow_pos _
  rw [roundUnits, Nat.mul_comm]
  refine Nat.mul_le_mul_left _ (nearestEven_le_of_le (Nat.mul_pos hden hpos) (h.trans_eq ?_))
  ring

/-- A magnitude is not rounded to less than a number that it does not fall below. -/
lemma le_roundUnits (hbound : spacing (num / den) ∣ bound) (h : bound * den ≤ num) :
    bound ≤ roundUnits num den := by
  obtain ⟨m, rfl⟩ := hbound
  have hpos : 0 < spacing (num / den) := Nat.two_pow_pos _
  rw [roundUnits, Nat.mul_comm _ (spacing (num / den))]
  refine Nat.mul_le_mul_left _ (le_nearestEven_of_le (Nat.mul_pos hden hpos) (Eq.trans_le ?_ h))
  ring

/-- **A power of two is reached from halfway below it**, seen from the numbers with 53 significant
bits. -/
theorem two_pow_le_roundUnits_iff (k : Nat) :
    2 ^ (k + 53) ≤ roundUnits num den ↔ (2 ^ 54 - 1) * (den * 2 ^ k) ≤ 2 * num := by
  have hfloor : num / den * den ≤ num := Nat.div_mul_le_self num den
  have hceil : num < (num / den + 1) * den := Nat.lt_mul_of_div_lt (Nat.lt_succ_self _) hden
  have hpow : ∀ m, 2 ^ (k + m) * den = 2 ^ m * (den * 2 ^ k) := fun m => by ring
  rcases Nat.lt_or_ge (num / den) (2 ^ (k + 52)) with hlow | hlow
  · -- the power of two before it is not passed
    have hnum : num ≤ 2 ^ (k + 52) * den := hceil.le.trans (Nat.mul_le_mul_right den hlow)
    have hbefore : roundUnits num den ≤ 2 ^ (k + 52) := by
      refine roundUnits_le hden (spacing_dvd (hlow.trans ?_)) hnum
      exact Nat.pow_lt_pow_right (by decide) (by omega)
    have hlt : 2 ^ (k + 52) < 2 ^ (k + 53) := Nat.pow_lt_pow_right (by decide) (by omega)
    rw [hpow] at hnum
    have hpos : 0 < den * 2 ^ k := Nat.mul_pos hden (Nat.two_pow_pos k)
    exact iff_of_false (by omega) (by omega)
  rcases Nat.lt_or_ge (num / den) (2 ^ (k + 53)) with hhigh | hhigh
  · have hspacing : spacing (num / den) = 2 ^ k := by
      have hne : num / den ≠ 0 := (Nat.lt_of_lt_of_le (Nat.two_pow_pos _) hlow).ne'
      have hlog₁ := (Nat.log2_lt hne).mpr hhigh
      have hlog₂ := (Nat.le_log2 hne).mpr hlow
      rw [spacing, show (num / den).log2 - 52 = k from by omega]
      rfl
    rw [roundUnits, hspacing, Nat.pow_add, Nat.mul_comm (2 ^ k),
      Nat.mul_le_mul_right_iff (Nat.two_pow_pos k),
      even_le_nearestEven_iff (Nat.mul_pos hden (Nat.two_pow_pos k)) (by decide)]
    rfl
  · -- the last power of two is not fallen below
    have hnum : 2 ^ (k + 53) * den ≤ num := (Nat.mul_le_mul_right den hhigh).trans hfloor
    have hne : num / den ≠ 0 := (Nat.lt_of_lt_of_le (Nat.two_pow_pos _) hhigh).ne'
    have hself : 2 ^ (num / den).log2 ≤ num / den := Nat.log2_self_le hne
    have hafter : 2 ^ (num / den).log2 ≤ roundUnits num den := by
      refine le_roundUnits hden (Nat.pow_dvd_pow 2 (Nat.sub_le _ _)) ?_
      exact (Nat.mul_le_mul_right den hself).trans hfloor
    have hle : 2 ^ (k + 53) ≤ 2 ^ (num / den).log2 :=
      Nat.pow_le_pow_right (by decide) ((Nat.le_log2 hne).mpr hhigh)
    rw [hpow] at hnum
    exact iff_of_true (hle.trans hafter) (by omega)

end Magnitudes

/-! ### Decimals -/

lemma limit_eq_two_pow : limit = 2 ^ (2045 + 53) := by decide +kernel

lemma one_eq_two_pow : one = 2 ^ 1074 := by decide +kernel

/-- A quotient of units is infinite exactly if it is rounded to the limit or beyond. -/
lemma ofUnits_eq_infinite_iff {negative : Bool} {num den : Nat} (hden : 0 < den) :
    ofUnits negative num den = .infinite negative ↔
      (2 ^ 54 - 1) * (den * 2 ^ 2045) ≤ 2 * num := by
  rw [← two_pow_le_roundUnits_iff hden, ← limit_eq_two_pow, ofUnits]
  split
  · next hfinite => exact iff_of_false (by rintro ⟨⟩) (Nat.not_le.mpr hfinite)
  · next hfinite => exact iff_of_true rfl (Nat.not_lt.mp hfinite)

/-- The first number that is not rounded to a finite one. It is halfway between the greatest of them,
whose 53 bits are all set, and the power of two behind it. -/
def overflow : Nat := (2 ^ 54 - 1) * 2 ^ 970

lemma overflow_pos : 0 < overflow := by decide +kernel

lemma overflow_le : overflow ≤ 10 ^ 311 := by decide +kernel

/-- A fraction is infinite exactly if it reaches the first number that is. -/
lemma ofRatio_eq_infinite_iff {negative : Bool} {num den : Nat} (hden : 0 < den) :
    ofRatio negative num den = .infinite negative ↔ overflow * den ≤ num := by
  have hdouble : ∀ k, 2 * (num * 2 ^ k) = num * 2 ^ (k + 1) := fun k => by ring
  have hsplit : ∀ m k, (2 ^ 54 - 1) * (den * 2 ^ (m + k)) = (2 ^ 54 - 1) * 2 ^ m * den * 2 ^ k :=
    fun m k => by ring
  rw [ofRatio, ofUnits_eq_infinite_iff hden, one_eq_two_pow, overflow, hdouble,
    show 2045 = 970 + (1074 + 1) from rfl, hsplit, Nat.mul_le_mul_right_iff (Nat.two_pow_pos _)]

/-- **Decimals that stand for no finite number** are those that reach the first such number. -/
theorem ofDecimal_eq_infinite_iff (negative : Bool) (n k : Nat) :
    ofDecimal negative n (-k) = .infinite negative ↔ overflow * 10 ^ k ≤ n := by
  have hlength := Nat.length_toDigits_pos (b := 10) (n := n)
  have hless : n < 10 ^ (Nat.toDigits 10 n).length :=
    (Nat.length_toDigits_le_iff (by decide) hlength).mp le_rfl
  rw [ofDecimal]
  split
  · -- decimals that are read as zero
    next hsmall =>
      refine iff_of_false (by rintro ⟨⟩) (Nat.not_le.mpr ?_)
      have hpos : 10 ^ k ≤ overflow * 10 ^ k := Nat.le_mul_of_pos_left _ overflow_pos
      rcases hsmall with rfl | hsmall
      · exact (Nat.pow_pos (by decide)).trans_le hpos
      · exact (hless.trans_le (Nat.pow_le_pow_right (by decide) (by omega))).trans_le hpos
  split
  · -- decimals that are read as infinite for the count of their digits
    next hgreat =>
      refine iff_of_true rfl ?_
      have hmore : 10 ^ (k + 311) ≤ n := by
        have hle := (Nat.length_toDigits_le_iff (b := 10) (n := n) (by decide)
          (Nat.succ_pos (k + 310))).not
        exact Nat.not_lt.mp (hle.mp (by omega))
      rw [pow_add, Nat.mul_comm] at hmore
      exact (Nat.mul_le_mul_right _ overflow_le).trans hmore
  split
  · next hwhole =>
      obtain rfl : k = 0 := by omega
      simpa using @ofRatio_eq_infinite_iff negative n 1 Nat.one_pos
  · rw [Int.neg_neg, Int.toNat_natCast]
    exact ofRatio_eq_infinite_iff (Nat.pow_pos (by decide))

end Binary64

namespace Numeral

/-- The numeral stands for a number that is not rounded to a finite one. -/
def IsTooGreat (x : Numeral) : Prop :=
  Binary64.overflow * 10 ^ x.fraction.length ≤ digitsValue (x.whole ++ x.fraction)

/-- A numeral has a finite value exactly if it is not too great. -/
theorem value_eq_infinite_iff (x : Numeral) : x.value = .infinite false ↔ x.IsTooGreat := by
  rw [value, scaled, Int.zero_sub, Binary64.ofDecimal_eq_infinite_iff, IsTooGreat]

end Numeral

end StyleTokens
