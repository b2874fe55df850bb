import Mathlib.Tactic.Common
import StyleTokens.Json.Reader
import StyleTokens.Json.Writer
import StyleTokens.Proofs.Basic

/-!
Strings of documents, read back.

* `Json.exists_hexDigits`: four digits and the unit that they write;
* `Json.escapedChar_cases`: the ways in which characters are written;
* `Json.readUnitEscape_unit`, `Json.readUnitEscape_pair`: characters that are written as one unit, and
  as a pair of them;
* `Json.readChar_escapedChar`: a character is read back from what is written for it;
* `Json.readString_escaped`: so is a string, up to its closing mark;
* `Json.isPrintable_of_mem_escapedChar`: strings are written in printable ASCII characters.
-/

namespace StyleTokens.Json

/-! ### Units -/

/-- A unit is written with four digits, which are read as that unit. -/
lemma exists_hexDigits {n : Nat} (h : n < 0x10000) :
    ∃ a b c d, Text.hexDigits 4 n = [a, b, c, d] ∧ unit? a b c d = some n := by
  have hdigit : ∀ d, d < 16 → Text.hexValue? (Text.hexDigit d) = some d :=
    fun d hd => (Text.hexValue?_hexDigit ⟨d, hd⟩).1
  refine ⟨_, _, _, _, rfl, ?_⟩
  rw [unit?, hdigit _ (by omega), hdigit _ (by omega), hdigit _ (by omega), hdigit _ (by omega)]
  simp only [Option.bind_eq_bind, Option.bind_some, Option.pure_def, Option.some.injEq]
  omega

/-- A unit that begins no pair is read as the character with its number. -/
lemma readUnitEscape_unit {n : Nat} (hn : n < 0x10000) (hhigh : isHighUnit n = false)
    {more : List Char} (hmore : more ≠ []) :
    readUnitEscape ('u' :: (Text.hexDigits 4 n ++ more)) = .ok (Char.ofNat n, more) := by
  obtain ⟨a, b, c, d, hdigits, hunit⟩ := exists_hexDigits hn
  simp [hdigits, readUnitEscape, hunit, hmore, hhigh]

/-- The second unit of a pair is read behind the first one. -/
lemma readLowUnit_unitEscape {n : Nat} (hn : n < 0x10000) (hlow : isLowUnit n = true)
    {rest : List Char} (hrest : rest ≠ []) :
    readLowUnit (unitEscape n ++ rest) = .ok (some n, rest) := by
  obtain ⟨a, b, c, d, hdigits, hunit⟩ := exists_hexDigits hn
  simp [unitEscape, hdigits, readLowUnit, hunit, hrest, hlow]

/-- A pair of units is read as one character. -/
lemma readUnitEscape_pair {high low : Nat} (hhigh : isHighUnit high = true)
    (hlow : isLowUnit low = true) {rest : List Char} (hrest : rest ≠ []) :
    readUnitEscape ('u' :: (Text.hexDigits 4 high ++ (unitEscape low ++ rest)))
      = .ok (Char.ofNat (joinUnits high low), rest) := by
  have hbounds := hhigh
  have hbounds' := hlow
  simp only [isHighUnit, isLowUnit, Bool.and_eq_true, decide_eq_true_eq] at hbounds hbounds'
  obtain ⟨a, b, c, d, hdigits, hunit⟩ := exists_hexDigits (n := high) (by omega)
  have hmore : unitEscape low ++ rest ≠ [] := by simp [hrest]
  have hread := readLowUnit_unitEscape (n := low) (by omega) hlow hrest
  simp only [hdigits, List.cons_append, List.nil_append, readUnitEscape, hunit, if_neg hmore,
    if_pos hhigh, hread, ok_bind]
  rfl

/-! ### Ways of writing characters -/

/-- Is the character a printable one of ASCII? -/
def IsPrintable (c : Char) : Prop := 0x20 ≤ c.toNat ∧ c.toNat < 0x7F

instance (c : Char) : Decidable (IsPrintable c) := inferInstanceAs (Decidable (_ ∧ _))

lemma isPrintable_of_all {cs : List Char} (h : cs.all (fun c => decide (IsPrintable c)) = true)
    {d : Char} (hd : d ∈ cs) : IsPrintable d :=
  of_decide_eq_true (List.all_eq_true.mp h d hd)

/-- The escapes of two characters, as what stands behind the backslash and the character. -/
def shortEscapes : List (Char × Char) :=
  [('"', '"'), ('\\', '\\'), ('n', '\n'), ('r', '\r'), ('t', '\t'), ('f', Char.ofNat 0x0C),
    ('b', Char.ofNat 0x08)]

/-- A character is written in one of four ways: with a short escape, as it is, as a unit, or as a pair
of units. -/
lemma escapedChar_cases (c : Char) :
    (∃ e, (e, c) ∈ shortEscapes ∧ escapedChar c = ['\\', e]) ∨
    (c ≠ '"' ∧ c ≠ '\\' ∧ IsPrintable c ∧ escapedChar c = [c]) ∨
    (c.toNat < 0x10000 ∧ escapedChar c = unitEscape c.toNat) ∨
    (0x10000 ≤ c.toNat ∧ escapedChar c =
      unitEscape (0xD800 + (c.toNat - 0x10000) / 0x400) ++
        unitEscape (0xDC00 + (c.toNat - 0x10000) % 0x400)) := by
  have hnumber : ∀ {n}, c.toNat = n → c = Char.ofNat n := by
    rintro n rfl
    exact (Char.ofNat_toNat c).symm
  rw [escapedChar]
  by_cases hmark : c = '"'
  · exact .inl ⟨'"', by simp [shortEscapes, hmark], if_pos hmark⟩
  rw [if_neg hmark]
  by_cases hslash : c = '\\'
  · exact .inl ⟨'\\', by simp [shortEscapes, hslash], if_pos hslash⟩
  rw [if_neg hslash]
  by_cases hfeed : c = '\n'
  · exact .inl ⟨'n', by simp [shortEscapes, hfeed], if_pos hfeed⟩
  rw [if_neg hfeed]
  by_cases hreturn : c = '\r'
  · exact .inl ⟨'r', by simp [shortEscapes, hreturn], if_pos hreturn⟩
  rw [if_neg hreturn]
  by_cases htab : c = '\t'
  · exact .inl ⟨'t', by simp [shortEscapes, htab], if_pos htab⟩
  rw [if_neg htab]
  by_cases hform : c.toNat = 0x0C
  · exact .inl ⟨'f', by simp [shortEscapes, hnumber hform], if_pos hform⟩
  rw [if_neg hform]
  by_cases hback : c.toNat = 0x08
  · exact .inl ⟨'b', by simp [shortEscapes, hnumber hback], if_pos hback⟩
  rw [if_neg hback]
  by_cases hplain : 0x20 ≤ c.toNat ∧ c.toNat < 0x7F
  · exact .inr (.inl ⟨hmark, hslash, hplain, if_pos hplain⟩)
  rw [if_neg hplain]
  by_cases hunit : c.toNat < 0x10000
  · exact .inr (.inr (.inl ⟨hunit, if_pos hunit⟩))
  · exact .inr (.inr (.inr ⟨Nat.le_of_not_lt hunit, if_neg hunit⟩))

lemma readChar_shortEscape {e c : Char} (h : (e, c) ∈ shortEscapes) (start more : List Char) :
    readChar start ('\\' :: e :: more) = .ok (some c, more) := by
  simp only [shortEscapes, List.mem_cons, Prod.mk.injEq, List.not_mem_nil, or_false] at h
  rcases h with ⟨rfl, rfl⟩ | ⟨rfl, rfl⟩ | ⟨rfl, rfl⟩ | ⟨rfl, rfl⟩ | ⟨rfl, rfl⟩ | ⟨rfl, rfl⟩ |
    ⟨rfl, rfl⟩ <;> rfl

lemma isPrintable_of_mem_shortEscapes {e c : Char} (h : (e, c) ∈ shortEscapes) : IsPrintable e := by
  have hall : shortEscapes.all (fun p => decide (IsPrintable p.1)) = true := by decide
  exact of_decide_eq_true (List.all_eq_true.mp hall _ h)

/-! ### Characters -/

/-- The number of a character beyond those of one unit is that of its pair. -/
lemma joinUnits_eq {n : Nat} (h : 0x10000 ≤ n) :
    joinUnits (0xD800 + (n - 0x10000) / 0x400) (0xDC00 + (n - 0x10000) % 0x400) = n := by
  have hdiv := Nat.div_add_mod (n - 0x10000) 0x400
  unfold joinUnits
  rw [Nat.add_sub_cancel_left, Nat.add_sub_cancel_left]
  omega

lemma readChar_unitEscape (start : List Char) (n : Nat) (more : List Char) :
    readChar start (unitEscape n ++ more)
      = readUnitEscape ('u' :: (Text.hexDigits 4 n ++ more)) >>= fun r =>
        pure (some r.1, r.2) := rfl

section Units

variable {c : Char} (start : List Char) {more : List Char}

/-- A character that is written as one unit is read back. -/
lemma readChar_unit (hunit : c.toNat < 0x10000) (hmore : more ≠ []) :
    readChar start (unitEscape c.toNat ++ more) = .ok (some c, more) := by
  have hvalid : c.toNat < 0xD800 ∨ 0xDFFF < c.toNat ∧ c.toNat < 0x110000 := c.valid
  have hhigh : isHighUnit c.toNat = false := by
    simp only [isHighUnit, Bool.and_eq_false_iff, decide_eq_false_iff_not]
    omega
  rw [readChar_unitEscape, readUnitEscape_unit hunit hhigh hmore, ok_bind, Char.ofNat_toNat]
  rfl

/-- A character that is written as a pair of units is read back. -/
lemma readChar_pair (hpair : 0x10000 ≤ c.toNat) (hmore : more ≠ []) :
    readChar start (unitEscape (0xD800 + (c.toNat - 0x10000) / 0x400) ++
      (unitEscape (0xDC00 + (c.toNat - 0x10000) % 0x400) ++ more)) = .ok (some c, more) := by
  have hvalid : c.toNat < 0xD800 ∨ 0xDFFF < c.toNat ∧ c.toNat < 0x110000 := c.valid
  have hhigh : isHighUnit (0xD800 + (c.toNat - 0x10000) / 0x400) = true := by
    simp only [isHighUnit, Bool.and_eq_true, decide_eq_true_eq]
    omega
  have hlow : isLowUnit (0xDC00 + (c.toNat - 0x10000) % 0x400) = true := by
    simp only [isLowUnit, Bool.and_eq_true, decide_eq_true_eq]
    omega
  rw [readChar_unitEscape, readUnitEscape_pair hhigh hlow hmore, ok_bind, joinUnits_eq hpair,
    Char.ofNat_toNat]
  rfl

end Units

/-- A character that stands for itself is read as it is. -/
lemma readChar_plain {c : Char} (hmark : c ≠ '"') (hslash : c ≠ '\\') (hcontrol : 0x20 ≤ c.toNat)
    (start more : List Char) : readChar start (c :: more) = .ok (some c, more) := by
  have hle : ¬ c.toNat ≤ 0x1F := by omega
  simp [readChar, hmark, hslash, hle]

/-- **A character is read back from what is written for it**, if anything follows. -/
theorem readChar_escapedChar (start : List Char) (c : Char) {more : List Char} (hmore : more ≠ []) :
    readChar start (escapedChar c ++ more) = .ok (some c, more) := by
  rcases escapedChar_cases c with
    ⟨e, he, hc⟩ | ⟨hmark, hslash, hplain, hc⟩ | ⟨hunit, hc⟩ | ⟨hpair, hc⟩
  · rw [hc]
    exact readChar_shortEscape he start more
  · rw [hc]
    exact readChar_plain hmark hslash hplain.1 start more
  · rw [hc]
    exact readChar_unit start hunit hmore
  · rw [hc, List.append_assoc]
    exact readChar_pair start hpair hmore

/-! ### Strings -/

lemma readChar_mark (start rest : List Char) : readChar start ('"' :: rest) = .ok (none, rest) := rfl

/-- There are at least as many characters written as there are in the string. -/
lemma length_le_escaped (cs : List Char) : cs.length ≤ (cs.flatMap escapedChar).length := by
  induction cs with
  | nil => exact Nat.le_refl 0
  | cons c cs ih =>
      have hne : escapedChar c ≠ [] := by
        intro h
        have hread := readChar_escapedChar [] c (List.cons_ne_nil '"' [])
        rw [h, List.nil_append, readChar_mark] at hread
        cases hread
      have hpos := List.length_pos_of_ne_nil hne
      rw [List.flatMap_cons, List.length_append, List.length_cons]
      omega

/-- The characters of a string are read back up to its closing mark, if there are steps enough. -/
lemma readCharsUpTo_escaped (start rest : List Char) {cs : List Char} {count : Nat}
    (h : cs.length < count) :
    readCharsUpTo start count (cs.flatMap escapedChar ++ '"' :: rest) = .ok (cs, rest) := by
  induction cs generalizing count with
  | nil =>
      obtain ⟨n, rfl⟩ : ∃ n, count = n + 1 := ⟨count - 1, by rw [List.length_nil] at h; omega⟩
      rfl
  | cons c cs ih =>
      rw [List.length_cons] at h
      obtain ⟨n, rfl⟩ : ∃ n, count = n + 1 := ⟨count - 1, by omega⟩
      rw [List.flatMap_cons, List.append_assoc, readCharsUpTo,
        readChar_escapedChar start c (by simp), ok_bind]
      dsimp only
      rw [ih (by omega), ok_bind]
      rfl

/-- **A string is read back from its characters as they are written**, and reading stops at the
closing mark. -/
theorem readString_escaped (start cs rest : List Char) :
    readString start (cs.flatMap escapedChar ++ '"' :: rest) = .ok (cs, rest) := by
  have hlength := length_le_escaped cs
  refine readCharsUpTo_escaped start rest ?_
  rw [List.length_append, List.length_cons]
  omega

/-! ### Printable characters -/

lemma isPrintable_hexDigit {d : Nat} (h : d < 16) : IsPrintable (Text.hexDigit d) := by
  have hall : ∀ d : Fin 16, IsPrintable (Text.hexDigit d) := by decide
  exact hall ⟨d, h⟩

lemma isPrintable_of_mem_unitEscape {n : Nat} {d : Char} (h : d ∈ unitEscape n) : IsPrintable d := by
  have hdigits : ∀ d ∈ Text.hexDigits 4 n, IsPrintable d := by
    intro d hd
    simp only [Text.hexDigits, List.nil_append, List.mem_append, List.mem_singleton] at hd
    rcases hd with ((rfl | rfl) | rfl) | rfl <;> exact isPrintable_hexDigit (by omega)
  rw [unitEscape] at h
  rcases List.mem_append.mp h with h | h
  · rcases List.mem_pair.mp h with rfl | rfl <;> decide
  · exact hdigits d h

/-- Every character is written in printable ones. -/
lemma isPrintable_of_mem_escapedChar {c d : Char} (h : d ∈ escapedChar c) : IsPrintable d := by
  rcases escapedChar_cases c with ⟨e, he, hc⟩ | ⟨-, -, hplain, hc⟩ | ⟨-, hc⟩ | ⟨-, hc⟩
  · rw [hc] at h
    rcases List.mem_pair.mp h with rfl | rfl
    · decide
    · exact isPrintable_of_mem_shortEscapes he
  · rw [hc] at h
    obtain rfl := List.mem_singleton.mp h
    exact hplain
  · exact isPrintable_of_mem_unitEscape (hc ▸ h)
  · rw [hc, List.mem_append] at h
    exact h.elim isPrintable_of_mem_unitEscape isPrintable_of_mem_unitEscape

/-- So is a string. -/
lemma isPrintable_of_mem_stringLiteral {cs : List Char} {d : Char} (h : d ∈ stringLiteral cs) :
    IsPrintable d := by
  rw [stringLiteral, List.cons_append, List.mem_cons, List.mem_append, List.mem_flatMap,
    List.mem_singleton] at h
  rcases h with rfl | ⟨c, -, hd⟩ | rfl
  · decide
  · exact isPrintable_of_mem_escapedChar hd
  · decide

end StyleTokens.Json
