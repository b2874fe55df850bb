import StyleTokens.Proofs.FunctionForm

/-!
Colours in hexadecimal digits.

* `Text.IsHexDigit`, `Text.exists_hexValue?_iff`: the characters that are digits;
  `Text.hexValue?_toLower`, `Text.upperHexDigit_of_hexValue?`: their case;
* `Color.IsInRange`: colours that have nothing to be clamped;
* `Color.IsHexDigits`, `Color.fullDigits`: the lists of digits that are colours, and their eight
  digits; `Color.ofHex_of_isHexDigits`, `Color.ofHex_of_not`: what is read from a list of digits;
* `Color.IsHexLiteral`, `Color.read_of_functionForm?_eq_none`: digits with a mark in front of them, and
  what is read where there is no functional form;
* `Color.hex_accepted_iff`: the literals that are read as digits.
-/

namespace StyleTokens

/-! ### Digits -/

namespace Text

/-- The character is one of the sixteen digits, in either case. -/
def IsHexDigit (c : Char) : Prop := c ∈ "0123456789abcdefABCDEF".toList

instance (c : Char) : Decidable (IsHexDigit c) := inferInstanceAs (Decidable (c ∈ _))

/-- The digits are the characters that have a value. -/
lemma exists_hexValue?_iff {c : Char} : (∃ d, hexValue? c = some d) ↔ IsHexDigit c := by
  constructor
  · rintro ⟨d, h⟩
    have hascii : ∀ n : Fin 128, (hexValue? (Char.ofNat n)).isSome → IsHexDigit (Char.ofNat n) := by
      decide
    have hlt : c.toNat < 128 := by
      rw [hexValue?] at h
      grind
    have hc := hascii ⟨c.toNat, hlt⟩
    rw [Char.ofNat_toNat] at hc
    exact hc (by rw [h]; rfl)
  · have hall : "0123456789abcdefABCDEF".toList.all fun c => (hexValue? c).isSome := by decide
    exact fun h => Option.isSome_iff_exists.mp (List.all_eq_true.mp hall c h)

/-- A digit has the same value in lower case. -/
lemma hexValue?_toLower (c : Char) : hexValue? c.toLower = hexValue? c := by
  rw [hexValue?, hexValue?, toNat_toLower]
  grind

/-- Writing the value of a digit gives the digit in upper case. -/
lemma upperHexDigit_of_hexValue? {c : Char} {d : Nat} (h : hexValue? c = some d) :
    upperHexDigit d = c.toUpper := by
  have hall : "0123456789abcdefABCDEF".toList.all fun c =>
      (hexValue? c).map upperHexDigit == some c.toUpper := by decide
  have hc := beq_iff_eq.mp (List.all_eq_true.mp hall c (exists_hexValue?_iff.mp ⟨d, h⟩))
  rw [h] at hc
  exact Option.some.inj hc

/-- A text is a list of digits if all of its characters have values. -/
lemma isHexDigit_of_mapM {cs : List Char} {values : List Nat}
    (h : cs.mapM hexValue? = some values) : ∀ c ∈ cs, IsHexDigit c := by
  intro c hc
  by_contra hdigit
  have hnone : hexValue? c = none := by
    rw [← exists_hexValue?_iff, ← Option.isSome_iff_exists, Bool.not_eq_true] at hdigit
    exact Option.isNone_iff_eq_none.mp (Option.isSome_eq_false_iff.mp hdigit)
  rw [Color.mapM_hexValue?_eq_none hnone hc] at h
  cases h

/-- Digits have values, which are below sixteen and are written with these digits in upper case. -/
lemma exists_values {digits : List Char} (h : ∀ c ∈ digits, IsHexDigit c) :
    ∃ values, digits.mapM hexValue? = some values ∧ (∀ n ∈ values, n < 16) ∧
      values.map upperHexDigit = digits.map Char.toUpper := by
  induction digits with
  | nil => exact ⟨[], rfl, by simp, rfl⟩
  | cons c digits ih =>
      obtain ⟨n, hn⟩ := exists_hexValue?_iff.mpr (h c (by simp))
      obtain ⟨values, hvalues, hlt, hupper⟩ := ih fun d hd => h d (by simp [hd])
      refine ⟨n :: values, ?_, ?_, ?_⟩
      · rw [List.mapM_cons, hn, hvalues]
        rfl
      · exact List.forall_mem_cons.mpr ⟨hexValue?_lt hn, hlt⟩
      · rw [List.map_cons, List.map_cons, hupper, upperHexDigit_of_hexValue? hn]

end Text

namespace Color

/-! ### Channels in the range -/

/-- All channels are in the range from 0 to 255. -/
def IsInRange (c : Color) : Prop :=
  ∀ channel ∈ [c.red, c.green, c.blue, c.alpha], 0 ≤ channel ∧ channel ≤ 255

/-- A colour whose channels are in the range stays when they are clamped. -/
lemma IsInRange.clamped_eq {c : Color} (h : c.IsInRange) : c.clamped = c := by
  simp only [IsInRange, List.forall_mem_cons] at h
  obtain ⟨⟨hr₀, hr₁⟩, ⟨hg₀, hg₁⟩, ⟨hb₀, hb₁⟩, ⟨ha₀, ha₁⟩, -⟩ := h
  rw [clamped, clamp_eq hr₀ hr₁, clamp_eq hg₀ hg₁, clamp_eq hb₀ hb₁, clamp_eq ha₀ ha₁]

/-- Numbers up to 255 are channels in the range. -/
lemma isInRange_of_le {r g b a : Nat} (hr : r ≤ 255) (hg : g ≤ 255) (hb : b ≤ 255)
    (ha : a ≤ 255) : IsInRange ⟨r, g, b, a⟩ := by
  simp only [IsInRange, List.forall_mem_cons]
  exact ⟨by omega, by omega, by omega, by omega, by simp⟩

/-! ### Lists of digits -/

section Digits

variable {digits : List Char}

/-- The digits are those of a colour: there are three, six or eight of them. -/
structure IsHexDigits (digits : List Char) : Prop where
  digit : ∀ c ∈ digits, Text.IsHexDigit c
  count : digits.length = 3 ∨ digits.length = 6 ∨ digits.length = 8

instance (digits : List Char) : Decidable (IsHexDigits digits) :=
  decidable_of_iff ((digits.all fun c => decide (Text.IsHexDigit c)) = true ∧
      (digits.length = 3 ∨ digits.length = 6 ∨ digits.length = 8))
    ⟨fun h => ⟨by simpa using h.1, h.2⟩, fun h => ⟨by simpa using h.digit, h.count⟩⟩

/-- Eight places: three are doubled, and where two are missing they are filled. -/
def eightPlaces {α : Type} (filler : α) (xs : List α) : List α :=
  (if xs.length = 3 then xs.flatMap fun x => [x, x] else xs) ++
    if xs.length = 8 then [] else [filler, filler]

/-- The eight digits of a colour, in upper case. Without digits for alpha it is opaque. -/
def fullDigits (digits : List Char) : List Char := eightPlaces 'F' (digits.map Char.toUpper)

lemma map_eightPlaces {α β : Type} (f : α → β) (filler : α) (xs : List α) :
    (eightPlaces filler xs).map f = eightPlaces (f filler) (xs.map f) := by
  rw [eightPlaces, eightPlaces, List.length_map, List.map_append]
  congr 1
  · split
    · rw [List.map_flatMap, List.flatMap_map]
      rfl
    · rfl
  · split <;> rfl

/-- The colour of three, six or eight values has a channel for every two of eight places. -/
lemma exists_ofDigits? {values : List Nat}
    (h : values.length = 3 ∨ values.length = 6 ∨ values.length = 8) :
    ∃ r₁ r₂ g₁ g₂ b₁ b₂ a₁ a₂ : Nat, eightPlaces 15 values = [r₁, r₂, g₁, g₂, b₁, b₂, a₁, a₂] ∧
      ofDigits? values = some ⟨(r₁ * 16 + r₂ : Nat), (g₁ * 16 + g₂ : Nat), (b₁ * 16 + b₂ : Nat),
        (a₁ * 16 + a₂ : Nat)⟩ := by
  rcases h with h | h | h
  · match values, h with
    | [r, g, b], _ =>
        refine ⟨r, r, g, g, b, b, 15, 15, rfl, ?_⟩
        have hdouble : ∀ n : Nat, n * 17 = n * 16 + n := fun n => by omega
        rw [ofDigits?, hdouble, hdouble, hdouble]
        rfl
  · match values, h with
    | [r₁, r₂, g₁, g₂, b₁, b₂], _ => exact ⟨r₁, r₂, g₁, g₂, b₁, b₂, 15, 15, rfl, rfl⟩
  · match values, h with
    | [r₁, r₂, g₁, g₂, b₁, b₂, a₁, a₂], _ =>
        exact ⟨r₁, r₂, g₁, g₂, b₁, b₂, a₁, a₂, rfl, rfl⟩

/-- Other counts of values are no colour. -/
lemma ofDigits?_eq_none {values : List Nat}
    (h : ¬ (values.length = 3 ∨ values.length = 6 ∨ values.length = 8)) :
    ofDigits? values = none := by
  rw [ofDigits?.eq_def]
  split
  · exact absurd (.inl rfl) h
  · exact absurd (.inr (.inl rfl)) h
  · exact absurd (.inr (.inr rfl)) h
  · rfl

/-- A channel of two digits is written with them. -/
lemma hexPair_digits {m n : Nat} (hm : m < 16) (hn : n < 16) :
    hexPair (m * 16 + n : Nat) = [Text.upperHexDigit m, Text.upperHexDigit n] := by
  have hclamp : clamp (m * 16 + n : Nat) = m * 16 + n := by
    rw [clamp]
    omega
  rw [hexPair, hclamp, show (m * 16 + n) / 16 = m from by omega,
    show (m * 16 + n) % 16 = n from by omega]

/-- What holds of the filler and of all elements holds in every place. -/
lemma forall_mem_eightPlaces {α : Type} {P : α → Prop} {filler : α} {xs : List α}
    (hfiller : P filler) (h : ∀ x ∈ xs, P x) : ∀ x ∈ eightPlaces filler xs, P x := by
  intro x hx
  rcases List.mem_append.mp hx with hx | hx
  · split at hx
    · obtain ⟨y, hy, hx⟩ := List.mem_flatMap.mp hx
      obtain rfl : x = y := by simpa using hx
      exact h x hy
    · exact h x hx
  · split at hx
    · cases hx
    · obtain rfl : x = filler := by simpa using hx
      exact hfiller

/-- Digits whose values are a colour are read as that colour. -/
lemma ofHex_of_ofDigits? {values : List Nat} {c : Color}
    (hvalues : digits.mapM Text.hexValue? = some values) (hc : ofDigits? values = some c) :
    ofHex digits = .ok c := by
  rw [ofHex, hvalues]
  cases values with
  | nil => cases hc
  | cons n values =>
      dsimp only
      rw [hc]

/-- **Three, six or eight digits are a colour** in the range, which is written with all eight. -/
theorem ofHex_of_isHexDigits (h : IsHexDigits digits) :
    ∃ c, ofHex digits = .ok c ∧ c.IsInRange ∧ c.rgbaHex = String.ofList (fullDigits digits) := by
  obtain ⟨values, hvalues, hlt, hupper⟩ := Text.exists_values h.digit
  have hlength : values.length = digits.length := by simpa using congrArg List.length hupper
  obtain ⟨r₁, r₂, g₁, g₂, b₁, b₂, a₁, a₂, hplaces, hcolor⟩ :=
    exists_ofDigits? (hlength ▸ h.count)
  have hplace := @forall_mem_eightPlaces Nat (· < 16) 15 values (by decide) hlt
  rw [hplaces] at hplace
  simp only [List.forall_mem_cons] at hplace
  obtain ⟨hr₁, hr₂, hg₁, hg₂, hb₁, hb₂, ha₁, ha₂, -⟩ := hplace
  have hwritten : fullDigits digits
      = [r₁, r₂, g₁, g₂, b₁, b₂, a₁, a₂].map Text.upperHexDigit := by
    rw [fullDigits, ← hupper, ← hplaces, map_eightPlaces]
    rfl
  refine ⟨_, ofHex_of_ofDigits? hvalues hcolor,
    isInRange_of_le (by omega) (by omega) (by omega) (by omega), ?_⟩
  rw [hwritten, rgbaHex, hexOf]
  simp only [List.flatMap_cons, List.flatMap_nil, hexPair_digits hr₁ hr₂, hexPair_digits hg₁ hg₂,
    hexPair_digits hb₁ hb₂, hexPair_digits ha₁ ha₂]
  rfl

/-- Any other text is refused for its characters or for the count of its digits. -/
lemma ofHex_of_not (h : ¬ IsHexDigits digits) :
    ofHex digits = .error (.notHex (String.ofList digits)) ∨
      ofHex digits = .error (.digitCount (String.ofList digits)) := by
  rw [ofHex]
  split
  · exact .inl rfl
  · exact .inl rfl
  · next values _ hvalues =>
      have hdigit := Text.isHexDigit_of_mapM hvalues
      obtain ⟨values', hvalues', -, hupper⟩ := Text.exists_values hdigit
      obtain rfl : values = values' := Option.some.inj (hvalues.symm.trans hvalues')
      have hlength : values.length = digits.length := by simpa using congrArg List.length hupper
      rw [ofDigits?_eq_none fun hcount => h ⟨hdigit, hlength ▸ hcount⟩]
      exact .inr rfl

/-- What is read is three, six or eight digits. -/
lemma isHexDigits_of_ofHex {c : Color} (h : ofHex digits = .ok c) : IsHexDigits digits := by
  by_contra hdigits
  rcases ofHex_of_not hdigits with herror | herror
  · rw [h] at herror
    cases herror
  · rw [h] at herror
    cases herror

end Digits

/-! ### Literals that are no functional form -/

section Literals

variable {cs digits : List Char}

/-- The literal is made of digits, with at most one mark in front of them. -/
def IsHexLiteral (cs digits : List Char) : Prop :=
  IsHexDigits digits ∧ (cs = digits ∨ cs = '#' :: digits)

/-- The text behind the mark, if there is one. -/
def afterMark : List Char → List Char
  | '#' :: digits => digits
  | cs => cs

/-- A literal that is no functional form is read as digits. -/
lemma read_of_functionForm?_eq_none {s : String} (h : functionForm? (core s.toList) = none) :
    read (.str s) = ofHex (afterMark (core s.toList)) := by
  rw [read, readChars, h]
  dsimp only
  split
  · next digits hcore => rw [hcore]; rfl
  · next hcore => rw [afterMark.eq_2 _ hcore]

/-- The mark is no digit. -/
lemma IsHexDigits.ne_mark (h : IsHexDigits digits) (tail : List Char) : digits ≠ '#' :: tail := by
  rintro rfl
  exact absurd (h.digit '#' (by simp)) (by decide)

/-- The digits of a literal are what stands behind the mark. -/
lemma IsHexLiteral.afterMark_eq (h : IsHexLiteral cs digits) : afterMark cs = digits := by
  obtain ⟨hdigits, rfl | rfl⟩ := h
  · exact afterMark.eq_2 _ hdigits.ne_mark
  · rfl

lemma isHexLiteral_afterMark (h : IsHexDigits (afterMark cs)) :
    IsHexLiteral cs (afterMark cs) := by
  refine ⟨h, ?_⟩
  by_cases hmark : ∃ tail, cs = '#' :: tail
  · obtain ⟨tail, rfl⟩ := hmark
    exact .inr rfl
  · exact .inl (afterMark.eq_2 cs fun tail htail => hmark ⟨tail, htail⟩).symm

end Literals

/-- **The literals that are read as digits.** A literal that has no functional form, once white space,
quote marks and white space are taken off, is a colour exactly if three, six or eight digits are
left with at most one mark in front of them. The colour is written with these digits in upper case,
three of them doubled, and with `FF` where alpha is missing. All other literals are refused. -/
theorem hex_accepted_iff {s : String} (hform : ∀ r g b a, ¬ IsFunction (core s.toList) r g b a) :
    ((∃ c, read (.str s) = .ok c) ↔ ∃ digits, IsHexLiteral (core s.toList) digits) ∧
    (∀ digits, IsHexLiteral (core s.toList) digits →
      ∃ c, read (.str s) = .ok c ∧ c.rgbaHex = String.ofList (fullDigits digits)) ∧
    ((∀ digits, ¬ IsHexLiteral (core s.toList) digits) →
      ∃ text, read (.str s) = .error (.notHex text) ∨ read (.str s) = .error (.digitCount text)) := by
  have hread : read (.str s) = ofHex (afterMark (core s.toList)) := by
    refine read_of_functionForm?_eq_none (functionForm?_eq_none_iff.mpr ?_)
    rintro ⟨r, g, b, a, h⟩
    exact hform r g b a h
  have haccepted : ∀ digits, IsHexLiteral (core s.toList) digits →
      ∃ c, read (.str s) = .ok c ∧ c.rgbaHex = String.ofList (fullDigits digits) := by
    intro digits h
    obtain ⟨c, hc, -, hwritten⟩ := ofHex_of_isHexDigits h.1
    exact ⟨c, by rw [hread, h.afterMark_eq, hc], hwritten⟩
  have hrefused : (∀ digits, ¬ IsHexLiteral (core s.toList) digits) →
      ∃ text, read (.str s) = .error (.notHex text) ∨
        read (.str s) = .error (.digitCount text) := by
    intro h
    rw [hread]
    exact ⟨_, ofHex_of_not fun hdigits => h _ (isHexLiteral_afterMark hdigits)⟩
  refine ⟨⟨fun ⟨c, hc⟩ => ?_, fun ⟨digits, h⟩ => ?_⟩, haccepted, hrefused⟩
  · rw [hread] at hc
    exact ⟨_, isHexLiteral_afterMark (isHexDigits_of_ofHex hc)⟩
  · obtain ⟨c, hc, -⟩ := haccepted digits h
    exact ⟨c, hc⟩

/-- Three digits in both cases, between quote marks and white space of several kinds. -/
theorem hex_accepted_iff_quoted :
    (∀ r g b a, ¬ IsFunction (core " '\"\t#aB9 \"\n".toList) r g b a) ∧
      IsHexLiteral (core " '\"\t#aB9 \"\n".toList) "aB9".toList ∧
      ∃ c, read (.str " '\"\t#aB9 \"\n") = .ok c ∧ c.rgbaHex = "AABB99FF" := by
  have hform : ∀ r g b a, ¬ IsFunction (core " '\"\t#aB9 \"\n".toList) r g b a :=
    fun r g b a h => functionForm?_eq_none_iff.mp (by decide) ⟨r, g, b, a, h⟩
  have hliteral : IsHexLiteral (core " '\"\t#aB9 \"\n".toList) "aB9".toList :=
    ⟨by decide, .inr (by decide)⟩
  obtain ⟨c, hread, hwritten⟩ := (hex_accepted_iff hform).2.1 _ hliteral
  exact ⟨hform, hliteral, c, hread, hwritten.trans (by decide)⟩

end Color

end StyleTokens
