import StyleTokens.Proofs.Basic
import StyleTokens.Text.Case

/-!
Lower case beyond ASCII.

* `Text.LowersToAscii`, `Text.asciiLower`: the characters whose lower case is one of ASCII, and what it
  is;
* `Text.lowerShifts_spec`, `Text.le_toNat_shifted`: shifts stay beyond ASCII, but for the kelvin;
* `Text.lowerAt`, `Text.lowerAt_of_not_lowersToAscii`: the lower case of a character at its place;
* `Text.lowerAfter_eq_map`, `Text.exists_mem_lowerAfter`, `Text.head?_lower_ne`: the lower case of a
  text.
-/

namespace StyleTokens.Text

/-- The sign for kelvins. -/
def kelvin : Char := Char.ofNat 0x212A

/-- The lower case of the character is one of ASCII. -/
def LowersToAscii (c : Char) : Prop := c.toNat < 0x80 ∨ c = kelvin

instance (c : Char) : Decidable (LowersToAscii c) := inferInstanceAs (Decidable (_ ∨ _))

/-- The lower case of a character for which it is one of ASCII. -/
def asciiLower (c : Char) : Char := if c = kelvin then 'k' else c.toLower

/-! ### Characters -/

/-- A run of shifts is the kelvin alone, or leads to numbers of characters beyond ASCII. -/
lemma lowerShifts_spec {lo hi step : Nat} {shift : Int} (h : (lo, hi, step, shift) ∈ lowerShifts) :
    lo = 0x212A ∧ hi = 0x212A ∨ 0x80 ≤ lo + shift ∧
      (hi + shift < 0xD800 ∨ 0xE000 ≤ lo + shift ∧ hi + shift < 0x110000) := by
  have hall : ∀ e ∈ lowerShifts, e.1 = 0x212A ∧ e.2.1 = 0x212A ∨ 0x80 ≤ e.1 + e.2.2.2 ∧
      (e.2.1 + e.2.2.2 < 0xD800 ∨ 0xE000 ≤ e.1 + e.2.2.2 ∧ e.2.1 + e.2.2.2 < 0x110000) := by
    decide +kernel
  exact hall _ h

lemma toNat_ofNat_of_isValidChar {n : Nat} (h : n.isValidChar) : (Char.ofNat n).toNat = n := by
  rw [Char.ofNat, dif_pos h]
  rfl

variable {c : Char}

/-- The kelvin is not in ASCII itself. -/
lemma ne_kelvin (h : c.toNat < 0x80) : c ≠ kelvin := by
  rintro rfl
  exact absurd h (by decide)

/-- Shifts stay beyond ASCII, but for the kelvin. -/
lemma le_toNat_shifted (hbeyond : 0x80 ≤ c.toNat) (hkelvin : c ≠ kelvin) :
    0x80 ≤ (shifted lowerShifts c).toNat := by
  rw [shifted]
  split
  · next lo hi step shift hfind =>
      have hrun : lo ≤ c.toNat ∧ c.toNat ≤ hi := by
        have hrun := List.find?_some hfind
        simp only [onRun, Bool.and_eq_true, decide_eq_true_eq] at hrun
        exact hrun.1
      rcases lowerShifts_spec (List.mem_of_find?_eq_some hfind) with ⟨hlo, hhi⟩ | ⟨hlo, hhi⟩
      · have hc : c.toNat = kelvin.toNat := (by omega : c.toNat = 0x212A)
        exact absurd (Char.toNat_inj.mp hc) hkelvin
      · rw [toNat_ofNat_of_isValidChar (by simp only [Nat.isValidChar]; omega)]
        omega
  · exact hbeyond

/-- No other character than the dollar sign becomes one. -/
lemma eq_of_asciiLower_eq_dollar (h : asciiLower c = '$') : c = '$' := by
  rw [asciiLower] at h
  split at h
  · exact absurd h (by decide)
  · have hnumber := toNat_toLower c
    have hdollar : '$'.toNat = 36 := rfl
    rw [h, hdollar] at hnumber
    exact Char.toNat_inj.mp (by split at hnumber <;> omega)

/-! ### Characters at their places -/

/-- The lower case of a character between two texts, of which the first is reversed. -/
def lowerAt (before : List Char) (c : Char) (after : List Char) : List Char :=
  if c.toNat = 0x3A3 then [Char.ofNat (if endsWord before after then 0x3C2 else 0x3C3)]
  else lowerChar c

lemma lowerAfter_cons (before : List Char) (c : Char) (cs : List Char) :
    lowerAfter before (c :: cs) = lowerAt before c cs ++ lowerAfter (c :: before) cs := rfl

lemma lowerAt_of_lowersToAscii (h : LowersToAscii c) (before after : List Char) :
    lowerAt before c after = [asciiLower c] := by
  rcases h with h | rfl
  · rw [lowerAt, if_neg (by omega), lowerChar, if_pos h, asciiLower, if_neg (ne_kelvin h)]
  · rw [lowerAt, if_neg (by decide), lowerChar, if_neg (by decide), if_neg (by decide)]
    decide

/-- The lower case of all other characters goes beyond ASCII, and none begins with a dollar sign. -/
lemma lowerAt_of_not_lowersToAscii (h : ¬ LowersToAscii c) (before after : List Char) :
    ∃ d ds, lowerAt before c after = d :: ds ∧ d ≠ '$' ∧ ∃ e ∈ d :: ds, 0x80 ≤ e.toNat := by
  obtain ⟨hbeyond, hkelvin⟩ := not_or.mp h
  have hbeyond := Nat.le_of_not_lt hbeyond
  have hsingle : ∀ d : Char, 0x80 ≤ d.toNat →
      ∃ d' ds, [d] = d' :: ds ∧ d' ≠ '$' ∧ ∃ e ∈ d' :: ds, 0x80 ≤ e.toNat := by
    intro d hd
    refine ⟨d, [], rfl, ?_, d, by simp, hd⟩
    rintro rfl
    exact absurd hd (by decide)
  rw [lowerAt]
  split
  · split
    · exact hsingle _ (by decide)
    · exact hsingle _ (by decide)
  · rw [lowerChar, if_neg (Nat.not_lt.mpr hbeyond)]
    split
    · -- the dotted letter keeps its dot as a mark of its own
      exact ⟨'i', [Char.ofNat 0x307], rfl, by decide, Char.ofNat 0x307, by simp, by decide⟩
    · exact hsingle _ (le_toNat_shifted hbeyond hkelvin)

/-! ### Texts -/

variable {cs : List Char}

/-- A text of characters whose lower case is in ASCII is changed one character after the other. -/
lemma lowerAfter_eq_map (h : ∀ c ∈ cs, LowersToAscii c) (before : List Char) :
    lowerAfter before cs = cs.map asciiLower := by
  induction cs generalizing before with
  | nil => rfl
  | cons c cs ih =>
      obtain ⟨hc, hcs⟩ := List.forall_mem_cons.mp h
      rw [lowerAfter_cons, lowerAt_of_lowersToAscii hc, ih hcs, List.map_cons,
        List.singleton_append]

/-- Any other text goes beyond ASCII in lower case. -/
lemma exists_mem_lowerAfter (h : ∃ c ∈ cs, ¬ LowersToAscii c) (before : List Char) :
    ∃ e ∈ lowerAfter before cs, 0x80 ≤ e.toNat := by
  induction cs generalizing before with
  | nil => simp at h
  | cons c cs ih =>
      rw [lowerAfter_cons]
      by_cases hc : LowersToAscii c
      · obtain ⟨e, he, hbeyond⟩ := ih (by simpa [hc] using h) (c :: before)
        exact ⟨e, List.mem_append_right _ he, hbeyond⟩
      · obtain ⟨d, ds, hlower, -, e, he, hbeyond⟩ := lowerAt_of_not_lowersToAscii hc before cs
        exact ⟨e, List.mem_append_left _ (hlower ▸ he), hbeyond⟩

/-- A text begins with a dollar sign in lower case only if it does so as it is. -/
lemma head?_lower_ne (h : cs.head? ≠ some '$') : (lower cs).head? ≠ some '$' := by
  rw [lower]
  cases cs with
  | nil => exact h
  | cons c cs =>
      rw [lowerAfter_cons]
      by_cases hc : LowersToAscii c
      · have hdollar : asciiLower c ≠ '$' := fun heq =>
          h (by rw [List.head?_cons, eq_of_asciiLower_eq_dollar heq])
        simpa [lowerAt_of_lowersToAscii hc] using hdollar
      · obtain ⟨d, ds, hlower, hd, -⟩ := lowerAt_of_not_lowersToAscii hc [] cs
        simpa [hlower] using hd

end StyleTokens.Text
