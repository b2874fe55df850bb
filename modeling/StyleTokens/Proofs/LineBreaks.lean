import StyleTokens.Proofs.ScriptConstants

/-!
Line breaks in the entries of tokens.

* `Text.IsLineBreak`: the characters that end a line;
* `Text.occurrences`: how often a character stands in a text;
* `Json.occurrences`: how often it stands in a value that is a string;
* `Json.occurrences_bareText`, `Json.occurrences_brightScript`, `Json.occurrences_typeScript`: values
  are written with the same characters other than printable ones;
* `Output.HasEntry`: the entry of a token in a file;
* `Output.HasEntry.occurrences_eq`: it has such characters from the value of the token alone.
-/

namespace StyleTokens

open Json (IsPrintable)

/-! ### Characters of texts -/

namespace Text

/-- The characters that end a line. -/
def lineBreaks : List Char :=
  ['\n', '\r', '\x0b', '\x0c', '\x1c', '\x1d', '\x1e', '\x85', '\u2028', '\u2029']

/-- Does the character end a line? -/
def IsLineBreak (d : Char) : Prop := d ∈ lineBreaks

instance (d : Char) : Decidable (IsLineBreak d) := inferInstanceAs (Decidable (d ∈ lineBreaks))

/-- What ends a line is not printed. -/
lemma IsLineBreak.not_isPrintable {d : Char} (h : IsLineBreak d) : ¬ IsPrintable d := by
  have hall : lineBreaks.all (fun d => !decide (IsPrintable d)) = true := by decide
  simpa using List.all_eq_true.mp hall d h

/-- Printed characters are other ones than those that are not. -/
lemma ne_of_not_isPrintable {d c : Char} (hd : ¬ IsPrintable d) (hc : IsPrintable c) : c ≠ d := by
  rintro rfl
  exact hd hc

/-- How often does the character stand in the text? -/
def occurrences (d : Char) (s : String) : Nat := s.toList.count d

section Occurrences

variable {d : Char} {s : String}

@[simp] lemma occurrences_append (d : Char) (s s' : String) :
    occurrences d (s ++ s') = occurrences d s + occurrences d s' := by
  simp [occurrences]

@[simp] lemma occurrences_ofList (d : Char) (cs : List Char) :
    occurrences d (String.ofList cs) = cs.count d := by
  simp [occurrences]

lemma occurrences_eq_zero_iff : occurrences d s = 0 ↔ d ∉ s.toList := List.count_eq_zero

/-- Printable texts have printable characters alone. -/
lemma occurrences_eq_zero (hd : ¬ IsPrintable d) (h : ∀ c ∈ s.toList, IsPrintable c) :
    occurrences d s = 0 :=
  occurrences_eq_zero_iff.mpr fun hmem => hd (h d hmem)

/-- The same for a text that is given. -/
lemma occurrences_of_all (hd : ¬ IsPrintable d)
    (h : s.toList.all (fun c => decide (IsPrintable c)) = true) : occurrences d s = 0 :=
  occurrences_eq_zero hd fun _ => Json.isPrintable_of_all h

end Occurrences

end Text

open Text

/-- Names of ASCII letters and digits have no line breaks. -/
lemma Token.HasPlainName.not_isLineBreak {t : Token} (h : t.HasPlainName) :
    ∀ d ∈ t.name.toList, ¬ IsLineBreak d := fun d hd hbreak =>
  hbreak.not_isPrintable (isPrintable_of_isWordChar (List.all_eq_true.mp h d hd))

section

variable {d : Char}

/-! ### Literals -/

namespace Output

/-- Characters that are written in the place of others keep what they have. -/
lemma count_escapeWith {image : Char → List Char} (h : ∀ c, (image c).count d = [c].count d)
    (s : String) : (escapeWith image s).count d = occurrences d s := by
  have hall : ∀ cs : List Char, (cs.flatMap image).count d = cs.count d := by
    intro cs
    induction cs with
    | nil => rfl
    | cons c cs ih => rw [List.flatMap_cons, List.count_append, h, ih, ← List.count_append]; rfl
  exact hall s.toList

lemma count_backslashed (hd : ¬ IsPrintable d) (mark c : Char) :
    (backslashed mark c).count d = [c].count d := by
  have hslash : '\\' ≠ d := ne_of_not_isPrintable hd (by decide)
  rw [backslashed]
  split
  · rw [List.count_cons_of_ne hslash]
  · rfl

lemma count_doubledMark (hd : ¬ IsPrintable d) (c : Char) :
    (doubledMark c).count d = [c].count d := by
  have hmark : '"' ≠ d := ne_of_not_isPrintable hd (by decide)
  rw [doubledMark]
  split
  · next hc => rw [hc, List.count_cons_of_ne hmark]
  · rfl

/-- A text between marks has what the text has. -/
lemma count_between_marks {mark : Char} (hmark : mark ≠ d) (cs : List Char) :
    (mark :: cs ++ [mark]).count d = cs.count d := by
  rw [List.count_append, List.count_cons_of_ne hmark, List.count_cons_of_ne hmark, List.count_nil,
    Nat.add_zero]

lemma occurrences_inDoubleMarks (hd : ¬ IsPrintable d) (s : String) :
    occurrences d (inDoubleMarks s) = occurrences d s := by
  rw [inDoubleMarks, occurrences_ofList, count_between_marks (ne_of_not_isPrintable hd (by decide)),
    count_escapeWith (count_backslashed hd _)]

lemma occurrences_inSingleMarks (hd : ¬ IsPrintable d) (s : String) :
    occurrences d (inSingleMarks s) = occurrences d s := by
  rw [inSingleMarks, occurrences_ofList, count_between_marks (ne_of_not_isPrintable hd (by decide)),
    count_escapeWith (count_backslashed hd _)]

lemma occurrences_inDoubledMarks (hd : ¬ IsPrintable d) (s : String) :
    occurrences d (inDoubledMarks s) = occurrences d s := by
  rw [inDoubledMarks, occurrences_ofList, count_between_marks (ne_of_not_isPrintable hd (by decide)),
    count_escapeWith (count_doubledMark hd)]

end Output

/-! ### Values -/

namespace Json

/-- How often does the character stand in a value that is a string? -/
def occurrences (d : Char) : Json → Nat
  | .str s => Text.occurrences d s
  | _ => 0

lemma isPrintable_of_mem_floatText {x : Binary64} {c : Char} (h : c ∈ (floatText x).toList) :
    IsPrintable c := by
  rw [floatText] at h
  split at h
  · rw [String.toList_ofList] at h
    exact isPrintable_of_mem_intText h
  · exact isPrintable_of_mem_text (fun _ => isPrintable_of_all (by decide))
      (fun _ => isPrintable_of_all (by decide)) h

lemma occurrences_written (hd : ¬ IsPrintable d) (v : Json) : Text.occurrences d v.written = 0 := by
  refine occurrences_eq_zero hd fun c hc => ?_
  rw [written, String.toList_ofList] at hc
  exact isPrintable_of_mem_writtenChars hc

/-- **Bare text has no other characters than printable ones but those of a string.** -/
theorem occurrences_bareText (hd : ¬ IsPrintable d) (v : Json) :
    Text.occurrences d v.bareText = v.occurrences d := by
  cases v with
  | null => exact occurrences_of_all hd (by decide)
  | bool b => cases b <;> exact occurrences_of_all hd (by decide)
  | int n =>
      refine occurrences_eq_zero hd fun c hc => isPrintable_of_mem_intText (n := n) ?_
      simpa [bareText, numberText?] using hc
  | float x => exact occurrences_eq_zero hd fun c hc => isPrintable_of_mem_floatText hc
  | str s => rfl
  | arr items => exact occurrences_written hd _
  | obj fields => exact occurrences_written hd _

/-- So has a literal with marks that are written twice. -/
theorem occurrences_brightScript (hd : ¬ IsPrintable d) (v : Json) :
    Text.occurrences d v.brightScript = v.occurrences d := by
  rw [brightScript.eq_def]
  split
  · exact occurrences_bareText hd _
  · exact occurrences_bareText hd _
  · exact occurrences_bareText hd _
  · split
    · exact occurrences_bareText hd _
    · rw [Output.occurrences_inDoubledMarks hd, occurrences_bareText hd]

/-- So has a literal with backslashes. -/
theorem occurrences_typeScript (hd : ¬ IsPrintable d) (v : Json) :
    Text.occurrences d v.typeScript = v.occurrences d := by
  cases v with
  | null => exact occurrences_of_all hd (by decide)
  | str s => exact Output.occurrences_inSingleMarks hd s
  | arr items => exact occurrences_written hd _
  | obj fields => exact occurrences_written hd _
  | _ => exact occurrences_bareText hd _

end Json

/-! ### Declarations -/

namespace Output

lemma isPrintable_identifierChar (c : Char) : IsPrintable (identifierChar c) := by
  rw [identifierChar]
  split
  · next h =>
      rcases Bool.or_eq_true_iff.mp h with h | h
      · exact isPrintable_of_isWordChar h
      · obtain rfl := beq_iff_eq.mp h
        decide
  · decide

lemma isPrintable_of_mem_swiftName {t : Token} {c : Char} (h : c ∈ (swiftName t).toList) :
    IsPrintable c := by
  dsimp only [swiftName] at h
  rw [String.toList_ofList] at h
  generalize (if t.path.drop 1 = [] then t.path else t.path.drop 1) = rest at h
  have hchars : ∀ cs : List Char, c ∈ cs.map identifierChar → IsPrintable c := by
    intro cs hc
    obtain ⟨e, -, rfl⟩ := List.mem_map.mp hc
    exact isPrintable_identifierChar e
  split at h
  · rcases List.mem_cons.mp h with rfl | h
    · decide
    · exact hchars _ h
  · exact hchars _ h

lemma isPrintable_upperHexDigit {n : Nat} (h : n < 16) : IsPrintable (Text.upperHexDigit n) := by
  have hall : ∀ n : Fin 16, IsPrintable (Text.upperHexDigit n) := by decide
  exact hall ⟨n, h⟩

lemma isPrintable_of_mem_rgbHex {color : Color} {c : Char} (h : c ∈ color.rgbHex.toList) :
    IsPrintable c := by
  rw [Color.rgbHex, Color.hexOf, String.toList_ofList] at h
  obtain ⟨channel, -, hc⟩ := List.mem_flatMap.mp h
  have hle := Color.clamp_le channel
  rcases List.mem_pair.mp hc with rfl | rfl
  · exact isPrintable_upperHexDigit (by omega)
  · exact isPrintable_upperHexDigit (by omega)

lemma isPrintable_of_mem_alphaFixed {color : Color} {c : Char} (h : c ∈ color.alphaFixed.toList) :
    IsPrintable c := by
  have hdigit : ∀ n, IsPrintable (Nat.digitChar (n % 10)) := by
    intro n
    have hall : ∀ n : Fin 10, IsPrintable (Nat.digitChar n) := by decide
    exact hall ⟨n % 10, Nat.mod_lt n (by decide)⟩
  rw [Color.alphaFixed, String.toList_ofList] at h
  rcases List.mem_append.mp h with h | h
  · exact Json.isPrintable_of_isAsciiDigit (Json.isAsciiDigit_of_mem_toDigits h)
  · rcases List.mem_cons.mp h with rfl | h
    · decide
    · rcases List.mem_pair.mp h with rfl | rfl <;> exact hdigit _

/-- Colours are written in printable characters. -/
lemma occurrences_swiftExpression (hd : ¬ IsPrintable d) (color : Color) :
    occurrences d (swiftExpression color) = 0 := by
  have hhex : occurrences d color.rgbHex = 0 :=
    occurrences_eq_zero hd fun _ => isPrintable_of_mem_rgbHex
  have halpha : occurrences d color.alphaFixed = 0 :=
    occurrences_eq_zero hd fun _ => isPrintable_of_mem_alphaFixed
  unfold swiftExpression
  split <;> simp (disch := decide) only [occurrences_append, occurrences_of_all hd, hhex, halpha]

/-! ### Entries -/

/-- The line is the entry of the token in files of the format. -/
inductive HasEntry : OutputFormat → Token → String → Prop where
  | scss (t : Token) : HasEntry .scss t (scssLine t)
  | brightScript (t : Token) : HasEntry .brightScript t (brightScriptLine t)
  | typeScript (t : Token) : HasEntry .typeScript t (typeScriptLine t)
  | swift {t : Token} {declaration : String} :
      swiftDeclaration t = .ok declaration → HasEntry .swift t ("        " ++ declaration)

/-- How often does the value of a token bring the character into its entry? Enumerations have an
expression for the value of a token that is tagged as a colour. -/
def brought (f : OutputFormat) (d : Char) (t : Token) : Nat :=
  if f = .swift ∧ t.tag.isText "color" = true then 0 else t.value.occurrences d

section Entries

variable {f : OutputFormat} {t : Token} {line : String}

lemma occurrences_swiftDeclaration (hd : ¬ IsPrintable d) {declaration : String}
    (h : swiftDeclaration t = .ok declaration) :
    occurrences d declaration = brought .swift d t := by
  have hname : occurrences d (swiftName t) = 0 :=
    occurrences_eq_zero hd fun _ => isPrintable_of_mem_swiftName
  rw [swiftDeclaration] at h
  rw [brought]
  split at h
  · next hcolor =>
      obtain ⟨color, -, hline⟩ := exists_of_bind_eq_ok h
      obtain rfl := Except.ok.inj hline
      rw [if_pos ⟨rfl, hcolor⟩]
      simp (disch := decide) only [occurrences_append, occurrences_of_all hd, hname,
        occurrences_swiftExpression hd]
  · next hcolor =>
      rw [if_neg fun h => hcolor h.2]
      split at h
      · obtain rfl := Except.ok.inj h
        simp (disch := decide) only [occurrences_append, occurrences_of_all hd, hname,
          Json.occurrences_bareText hd, Nat.zero_add]
      · obtain rfl := Except.ok.inj h
        simp (disch := decide) only [occurrences_append, occurrences_of_all hd, hname,
          occurrences_inDoubleMarks hd, Json.occurrences_bareText hd, Nat.zero_add]

/-- **What is not printable in an entry comes from the value of its token**, if it is not in the name:
it is there as often as in the value, if this is a string, and not at all otherwise. -/
theorem HasEntry.occurrences_eq (h : HasEntry f t line) (hd : ¬ IsPrintable d)
    (hname : d ∉ t.name.toList) : occurrences d line = brought f d t := by
  have hname : occurrences d t.name = 0 := occurrences_eq_zero_iff.mpr hname
  cases h with
  | scss =>
      unfold scssLine
      simp (disch := decide) only [occurrences_append, occurrences_of_all hd, hname,
        Json.occurrences_bareText hd, Nat.zero_add, Nat.add_zero]
      rfl
  | brightScript =>
      unfold brightScriptLine
      simp (disch := decide) only [occurrences_append, occurrences_of_all hd, hname,
        Json.occurrences_brightScript hd, Nat.zero_add]
      rfl
  | typeScript =>
      unfold typeScriptLine
      simp (disch := decide) only [occurrences_append, occurrences_of_all hd, hname,
        Json.occurrences_typeScript hd, Nat.zero_add, Nat.add_zero]
      rfl
  | swift hdeclaration =>
      simp (disch := decide) only [occurrences_append, occurrences_of_all hd, Nat.zero_add,
        occurrences_swiftDeclaration hd hdeclaration]

end Entries

end Output

end

end StyleTokens
