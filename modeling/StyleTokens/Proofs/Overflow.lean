import StyleTokens.Proofs.ColorRange

/-!
Colours that end the check of a document.

* `Numeral.exists_value_eq_finite`, `Color.exists_channel_eq_ok`: numerals that are not too great have
  finite values and are channels;
* `Color.Overflows`: literals in functional form with a channel that is too great;
  `Color.read_channelInfinite_iff`: they are the values that are not refused, but cannot be read;
* `TokenEntry.findings_channelInfinite_iff`, `TokenEntry.unreadable_mem_of_findings`: the tokens whose
  check ends at their colour, and those whose colour is reported;
* `colors_reported_iff`: what becomes of colours that cannot be read.
  `overflowing_channel_unreported` has one that goes unreported.
-/

namespace StyleTokens

/-! ### Channels that are too great -/

/-- A number read from decimals is finite, or the infinity of its sign. -/
lemma Binary64.ofDecimal_cases (negative : Bool) (n : Nat) (k : Int) :
    (∃ units, ofDecimal negative n k = .finite negative units) ∨
      ofDecimal negative n k = .infinite negative := by
  have hunits : ∀ num den, (∃ units, ofUnits negative num den = .finite negative units) ∨
      ofUnits negative num den = .infinite negative := by
    intro num den
    rw [ofUnits]
    split
    · exact .inl ⟨_, rfl⟩
    · exact .inr rfl
  rw [ofDecimal]
  split
  · exact .inl ⟨0, rfl⟩
  split
  · exact .inr rfl
  split
  · exact hunits _ _
  · exact hunits _ _

/-- A numeral that is not too great has a finite value. -/
lemma Numeral.exists_value_eq_finite {x : Numeral} (h : ¬ x.IsTooGreat) :
    ∃ units, x.value = .finite false units :=
  (Binary64.ofDecimal_cases _ _ _).resolve_right (x.value_eq_infinite_iff.not.mpr h)

namespace Color

section Channels

variable {x r g b : Numeral} {a : Option Numeral} {form : String}

lemma channel_of_isTooGreat (h : x.IsTooGreat) : channel x = .error .channelInfinite := by
  rw [channel, x.value_eq_infinite_iff.mpr h]

/-- A numeral that is not too great is a channel, in the range or not. -/
lemma exists_channel_eq_ok (h : ¬ x.IsTooGreat) : ∃ n, channel x = .ok n := by
  obtain ⟨units, hunits⟩ := Numeral.exists_value_eq_finite h
  exact ⟨halfUp units, by rw [channel, hunits]⟩

/-- Colours in functional form are read or refused, unless a channel is too great. Alpha is compared
before it is rounded, and never is. -/
lemma ofFunction_channelInfinite_iff : ofFunction form r g b a = .error .channelInfinite ↔
    ∃ x ∈ [r, g, b], x.IsTooGreat := by
  rw [ofFunction_eq]
  by_cases hr : r.IsTooGreat
  · rw [channel_of_isTooGreat hr]
    exact iff_of_true rfl ⟨r, by simp, hr⟩
  obtain ⟨red, hred⟩ := exists_channel_eq_ok hr
  rw [hred, ok_bind]
  by_cases hg : g.IsTooGreat
  · rw [channel_of_isTooGreat hg]
    exact iff_of_true rfl ⟨g, by simp, hg⟩
  obtain ⟨green, hgreen⟩ := exists_channel_eq_ok hg
  rw [hgreen, ok_bind]
  by_cases hb : b.IsTooGreat
  · rw [channel_of_isTooGreat hb]
    exact iff_of_true rfl ⟨b, by simp, hb⟩
  obtain ⟨blue, hblue⟩ := exists_channel_eq_ok hb
  rw [hblue, ok_bind]
  refine iff_of_false ?_ (by simp [hr, hg, hb])
  split
  · rintro ⟨⟩
  · split <;> rintro ⟨⟩

/-- Digits are read or refused. -/
lemma ofHex_ne_channelInfinite (digits : List Char) : ofHex digits ≠ .error .channelInfinite := by
  by_cases hdigits : IsHexDigits digits
  · obtain ⟨c, hc, -⟩ := ofHex_of_isHexDigits hdigits
    rw [hc]
    rintro ⟨⟩
  · rcases ofHex_of_not hdigits with h | h
    · rw [h]
      rintro ⟨⟩
    · rw [h]
      rintro ⟨⟩

/-- The value is a literal in functional form with a channel that is too great to be rounded to a
whole number. -/
def Overflows (v : Json) : Prop :=
  ∃ s r g b a, v = .str s ∧ IsFunction (core s.toList) r g b a ∧ ∃ x ∈ [r, g, b], x.IsTooGreat

/-- **A value is read or refused, unless one of its channels is too great.** -/
theorem read_channelInfinite_iff {v : Json} : read v = .error .channelInfinite ↔ Overflows v := by
  cases v with
  | str s =>
      cases hform : functionForm? (core s.toList) with
      | none =>
          rw [read_of_functionForm?_eq_none hform]
          refine iff_of_false (ofHex_ne_channelInfinite _) ?_
          rintro ⟨_, r, g, b, a, ⟨⟩, hfunction, -⟩
          exact functionForm?_eq_none_iff.mp hform ⟨r, g, b, a, hfunction⟩
      | some form =>
          obtain ⟨r, g, b, a⟩ := form
          rw [read_of_functionForm?_eq_some hform, ofFunction_channelInfinite_iff]
          constructor
          · exact fun h => ⟨s, r, g, b, a, rfl, isFunction_of_functionForm? hform, h⟩
          · rintro ⟨_, r', g', b', a', ⟨⟩, hfunction, h⟩
            rw [functionForm?_of_isFunction hfunction] at hform
            cases hform
            exact h
  | _ => exact iff_of_false (by rintro ⟨⟩) (by rintro ⟨_, _, _, _, _, ⟨⟩, -⟩)

/-- Such a literal is a text that does not begin like a reference. -/
lemma Overflows.isLiteral {v : Json} (h : Overflows v) :
    v.isNull = false ∧ beginsReference v = false := by
  have hread := read_channelInfinite_iff.mpr h
  obtain ⟨s, -, -, -, -, rfl, -⟩ := h
  refine ⟨rfl, ?_⟩
  by_contra hbegins
  have hhead : s.toList.head? = some '{' := by simpa [beginsReference] using hbegins
  obtain ⟨text, hrefused⟩ := readChars_of_brace (List.mem_of_mem_head? hhead)
  rw [read, hrefused] at hread
  cases hread

end Channels

end Color

/-! ### Findings on tokens -/

namespace TokenEntry

variable {file : String} {r : TokenEntry}

/-- The check of a token ends at its colour exactly if a channel of it is too great. -/
lemma findings_channelInfinite_iff : r.findings file = .error .channelInfinite ↔
    r.tag = .str "color" ∧ Color.Overflows r.value := by
  rw [← Color.read_channelInfinite_iff]
  constructor
  · intro h
    by_cases hmissing : r.value.isNull = true ∨ r.tag.isNull = true
    · obtain ⟨f, hf⟩ := exists_findings_of_missing hmissing
      rw [hf] at h
      cases h
    obtain ⟨hvalue, htag⟩ := not_or.mp hmissing
    have hvalue := Bool.eq_false_iff.mpr hvalue
    have htag := Bool.eq_false_iff.mpr htag
    by_cases hcolor : r.tag = .str "color"
    · refine ⟨hcolor, ?_⟩
      rw [findings_color hcolor hvalue, checkColor] at h
      split at h
      · cases h
      · split at h
        · cases h
        · assumption
        · cases h
    · -- no other type tag has the colour read
      cases hkind : r.tag.compositeKey? with
      | some kind =>
          rw [findings_composite hvalue hkind] at h
          cases h
      | none =>
          rw [findings_plain hvalue htag hkind, if_neg (Json.isText_iff.not.mpr hcolor)] at h
          cases h
  · rintro ⟨hcolor, hread⟩
    obtain ⟨hvalue, hbegins⟩ := (Color.read_channelInfinite_iff.mp hread).isLiteral
    rw [findings_color hcolor hvalue, checkColor, hbegins, hread]
    rfl

/-- The error for a colour that is missing or cannot be read. -/
def unreadable (file : String) (r : TokenEntry) : String :=
  r.location file ++ if r.value.isNull then " is missing \"value\" property"
    else " has invalid color value \"" ++ r.value.plain ++ "\""

/-- Where the check of a token does not end, its colour is read or reported, unless it begins like a
reference. -/
lemma unreadable_mem_of_findings {f : Findings} (h : r.findings file = .ok f)
    (htag : r.tag = .str "color") (hbegins : beginsReference r.value = false) :
    (∃ c, Color.read r.value = .ok c) ∨ r.unreadable file ∈ f.errors := by
  rw [unreadable]
  cases hvalue : r.value.isNull with
  | true =>
      rw [findings_eq, if_pos hvalue] at h
      cases h
      exact .inr (List.mem_singleton.mpr rfl)
  | false =>
      rw [findings_color htag hvalue, checkColor, hbegins, if_neg Bool.false_ne_true] at h
      split at h
      · next c hread => exact .inl ⟨c, hread⟩
      · cases h
      · cases h
        refine .inr (List.mem_singleton.mpr ?_)
        rw [if_neg Bool.false_ne_true, String.append_assoc, String.append_assoc, String.append_assoc]

end TokenEntry

/-! ### Findings of a document -/

/-- **What becomes of colours that cannot be read.**
* A value is read or refused exactly if it is not a literal in functional form with a channel that is
  too great to be rounded.
* The check of a document ends at a colour exactly if there is such a literal among its tokens with
  the type tag of colours, and the tokens before it have been checked.
* If the check does not end, every value with this type tag is read or reported, unless it begins
  like a reference. -/
theorem colors_reported_iff (file : String) (fields : Fields) :
    (∀ v, ((∃ c, Color.read v = .ok c) ∨ ∃ e, Color.read v = .error e ∧ e ≠ .channelInfinite) ↔
      ¬ Color.Overflows v) ∧
    (checkDeclarations file fields = .error .channelInfinite ↔
      ∃ before r after, TokenEntry.visitIn "" fields = before ++ r :: after ∧
        (∀ s ∈ before, ∃ found, TokenEntry.findings file s = .ok found) ∧
        r.tag = .str "color" ∧ Color.Overflows r.value) ∧
    ∀ found, checkDeclarations file fields = .ok found →
      ∀ r ∈ TokenEntry.visitIn "" fields, r.tag = .str "color" → beginsReference r.value = false →
        (∃ c, Color.read r.value = .ok c) ∨ r.unreadable file ∈ found.errors := by
  refine ⟨fun v => ?_, ?_, fun found h r hr htag hbegins => ?_⟩
  · rw [← Color.read_channelInfinite_iff]
    cases Color.read v with
    | ok c => simp
    | error e => simp
  · rw [checkDeclarations_eq_error_iff]
    simp only [TokenEntry.findings_channelInfinite_iff]
  · obtain ⟨f, hf, herrors, -⟩ := exists_findings_of_mem h hr
    exact (TokenEntry.unreadable_mem_of_findings hf htag hbegins).imp_right fun hmem => herrors hmem

/-- The characters of a colour with a channel of 310 digits. -/
def overflowingChars : List Char :=
  "rgb(1".toList ++ List.replicate 309 '0' ++ ",0,0)".toList

/-- A channel of 310 digits is neither read nor refused, and the check of its document ends there. -/
theorem overflowing_channel_unreported :
    Color.read (.str (String.ofList overflowingChars)) = .error .channelInfinite ∧
      checkDeclarations "inks.json" [("ink", .obj (inkToken (String.ofList overflowingChars)))]
        = .error .channelInfinite := by
  have hchars : Color.readChars overflowingChars = .error .channelInfinite := by decide +kernel
  have hread : Color.read (.str (String.ofList overflowingChars)) = .error .channelInfinite := by
    rw [Color.read, String.toList_ofList, hchars]
  generalize String.ofList overflowingChars = s at hread
  have hfindings : TokenEntry.findings "inks.json" ⟨"ink", .str s, .str "color"⟩
      = .error .channelInfinite :=
    TokenEntry.findings_channelInfinite_iff.mpr ⟨rfl, Color.read_channelInfinite_iff.mp hread⟩
  exact ⟨hread, checkDeclarations_eq_error_iff.mpr ⟨[], _, [], rfl, by simp, hfindings⟩⟩

end StyleTokens
