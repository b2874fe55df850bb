import StyleTokens.Proofs.HexLiterals

/-!
Rendered colours, read back.

* `Color.IsRecased`: texts that differ in the case of their letters;
* `Color.Encloses`: a literal in quote marks, with white space inside and outside of them;
  `Color.core_of_encloses`: what is left of it is the literal;
* `Color.read_wrapped`: digits behind a mark are read in any case and in any such wrapping;
* `Color.read_rgbaHex`: the eight digits of a colour are read as the colour in the range;
* `Color.read_rendered`: all of this for the digits that a colour is written with.
-/

namespace StyleTokens.Color

/-! ### Case and quote marks -/

section Wrapping

variable {cs text : List Char}

/-- The texts are the same but for the case of their letters. -/
def IsRecased (cs ds : List Char) : Prop := ds.map Char.toLower = cs.map Char.toLower

instance (cs ds : List Char) : Decidable (IsRecased cs ds) := inferInstanceAs (Decidable (_ = _))

/-- The text is the literal in quote marks, with white space inside and outside of them. -/
def Encloses (cs text : List Char) : Prop :=
  ∃ before opening inFront behind closing after,
    text = before ++ opening ++ inFront ++ cs ++ (behind ++ closing ++ after) ∧
      (∀ c ∈ before ++ inFront ++ behind ++ after, Text.isBlank c = true) ∧
      ∀ c ∈ opening ++ closing, isQuote c = true

/-- Trimming removes at both sides what may be removed around a text that is to stay. -/
lemma trim_around {p : Char → Bool} (hne : cs ≠ []) (hcs : ∀ c ∈ cs, p c = false)
    (front back : List Char) : Text.trim p (front ++ cs ++ back)
      = front.dropWhile p ++ cs ++ (back.reverse.dropWhile p).reverse := by
  -- one side, before any text that stays at its front
  have hside : ∀ {stays : List Char}, stays ≠ [] → (∀ c ∈ stays, p c = false) →
      ∀ gone rest, (gone ++ (stays ++ rest)).dropWhile p = gone.dropWhile p ++ (stays ++ rest) := by
    intro stays hne hstays gone rest
    obtain ⟨c, stays, rfl⟩ := List.exists_cons_of_ne_nil hne
    rw [List.dropWhile_append]
    split
    · next hgone =>
        have hc : ¬ p c = true := by simp [hstays c (by simp)]
        rw [List.isEmpty_iff.mp hgone]
        exact List.dropWhile_cons_of_neg hc
    · rfl
  have hreverse : cs.reverse ≠ [] := by simpa using hne
  rw [Text.trim, List.append_assoc, hside hne hcs, List.reverse_append, List.reverse_append,
    List.append_assoc, hside hreverse (by simpa using hcs)]
  simp

/-- A quote mark is not white space. -/
lemma isBlank_of_isQuote {c : Char} (h : isQuote c = true) : Text.isBlank c = false := by
  rw [isQuote, Bool.or_eq_true, beq_iff_eq, beq_iff_eq] at h
  rcases h with rfl | rfl
  · rfl
  · rfl

/-- Nothing is left of white space, quote marks and white space. -/
lemma dropWhile_wrapping {outer quotes inner : List Char}
    (houter : ∀ c ∈ outer, Text.isBlank c = true) (hquotes : ∀ c ∈ quotes, isQuote c = true)
    (hinner : ∀ c ∈ inner, Text.isBlank c = true) :
    (((outer ++ (quotes ++ inner)).dropWhile Text.isBlank).dropWhile isQuote).dropWhile
      Text.isBlank = [] := by
  rw [List.dropWhile_append_of_pos houter]
  cases quotes with
  | nil => rw [List.nil_append, List.dropWhile_eq_nil_iff.mpr hinner, List.dropWhile_nil,
      List.dropWhile_nil]
  | cons c quotes =>
      have hc : ¬ Text.isBlank c = true := by simp [isBlank_of_isQuote (hquotes c (by simp))]
      rw [List.cons_append, List.dropWhile_cons_of_neg hc, ← List.cons_append,
        List.dropWhile_append_of_pos hquotes]
      exact List.dropWhile_eq_nil_iff.mpr fun d hd =>
        hinner d ((List.dropWhile_suffix isQuote).subset hd)

/-- **A literal is what is left of its wrappings**, if none of its characters is white space or a
quote mark. -/
theorem core_of_encloses (hne : cs ≠ [])
    (hcs : ∀ c ∈ cs, Text.isBlank c = false ∧ isQuote c = false) (h : Encloses cs text) :
    core text = cs := by
  obtain ⟨before, opening, inFront, behind, closing, after, rfl, hblank, hquote⟩ := h
  simp only [List.mem_append, or_imp, forall_and] at hblank hquote
  obtain ⟨⟨⟨hbefore, hinFront⟩, hbehind⟩, hafter⟩ := hblank
  obtain ⟨hopening, hclosing⟩ := hquote
  have hfront := dropWhile_wrapping hbefore hopening hinFront
  have hback := @dropWhile_wrapping after.reverse closing.reverse behind.reverse
    (by simpa using hafter) (by simpa using hclosing) (by simpa using hbehind)
  have hblank := fun c hc => (hcs c hc).1
  have hreverse : (behind ++ closing ++ after).reverse
      = after.reverse ++ (closing.reverse ++ behind.reverse) := by simp
  rw [core, Text.strip, Text.strip, List.append_assoc before, trim_around hne hblank,
    trim_around hne fun c hc => (hcs c hc).2, trim_around hne hblank, List.reverse_reverse,
    List.reverse_reverse, hreverse, hfront, hback]
  simp

/-- Digits have the same values in any case. -/
lemma mapM_hexValue?_of_isRecased {digits digits' : List Char} (h : IsRecased digits digits') :
    digits'.mapM Text.hexValue? = digits.mapM Text.hexValue? := by
  have hlower : ∀ ds : List Char, (ds.map Char.toLower).mapM Text.hexValue?
      = ds.mapM Text.hexValue? := by
    intro ds
    induction ds with
    | nil => rfl
    | cons d ds ih =>
        rw [List.map_cons, List.mapM_cons, List.mapM_cons, ih, Text.hexValue?_toLower]
  rw [← hlower digits', ← hlower digits, h]

/-- The mark is the same in any case. -/
lemma exists_of_isRecased_mark {digits : List Char} (h : IsRecased ('#' :: digits) text) :
    ∃ digits', text = '#' :: digits' ∧ IsRecased digits digits' := by
  obtain ⟨c, digits', rfl, hc, hdigits⟩ := List.map_eq_cons_iff.mp h
  obtain rfl : c = '#' := eq_of_toLower_eq (by decide) hc
  exact ⟨digits', rfl, hdigits⟩

lemma isForeign_mark : IsForeign '#' := ⟨by decide, by decide, by decide, by decide⟩

/-- **Digits behind a mark are read in any case and in any wrapping** as the colour that they are. -/
theorem read_wrapped {digits recased : List Char} {values : List Nat} {c : Color} {s : String}
    (hvalues : digits.mapM Text.hexValue? = some values) (hc : ofDigits? values = some c)
    (hrecased : IsRecased ('#' :: digits) recased) (hs : Encloses recased s.toList) :
    read (.str s) = .ok c := by
  obtain ⟨digits', rfl, hdigits'⟩ := exists_of_isRecased_mark hrecased
  have hvalues' : digits'.mapM Text.hexValue? = some values :=
    (mapM_hexValue?_of_isRecased hdigits').trans hvalues
  have hplain : ∀ d ∈ '#' :: digits', Text.isBlank d = false ∧ isQuote d = false := by
    have hall : "0123456789abcdefABCDEF".toList.all fun d => !Text.isBlank d && !isQuote d := by
      decide
    rintro d hd
    rcases List.mem_cons.mp hd with rfl | hd
    · exact ⟨rfl, rfl⟩
    · simpa using List.all_eq_true.mp hall d (Text.isHexDigit_of_mapM hvalues' d hd)
  have hcore : core s.toList = '#' :: digits' := core_of_encloses (by simp) hplain hs
  have hform : functionForm? (core s.toList) = none := by
    rw [hcore]
    exact functionForm?_eq_none isForeign_mark (by simp)
  rw [read_of_functionForm?_eq_none hform, hcore, afterMark]
  exact ofHex_of_ofDigits? hvalues' hc

end Wrapping

/-! ### Rendered colours -/

section Rendered

/-- The values of rendered channels. -/
lemma mapM_hexValue?_hexPair (channels : List Int) :
    (channels.flatMap hexPair).mapM Text.hexValue?
      = some (channels.flatMap fun n => [clamp n / 16, clamp n % 16]) := by
  have hdigit : ∀ n < 16, Text.hexValue? (Text.upperHexDigit n) = some n :=
    fun n hn => (Text.hexValue?_hexDigit ⟨n, hn⟩).2
  induction channels with
  | nil => rfl
  | cons n channels ih =>
      have hle := clamp_le n
      rw [List.flatMap_cons, List.flatMap_cons, hexPair, List.cons_append, List.cons_append,
        List.nil_append, List.mapM_cons, List.mapM_cons, hdigit _ (by omega), hdigit _ (by omega), ih]
      rfl

/-- Rendered channels behind a mark are read in any case and in any wrapping. -/
lemma read_wrapped_hexOf {channels : List Int} {c : Color} {recased : List Char} {s : String}
    (hc : ofDigits? (channels.flatMap fun n => [clamp n / 16, clamp n % 16]) = some c)
    (hrecased : IsRecased ("#" ++ hexOf channels).toList recased) (hs : Encloses recased s.toList) :
    read (.str s) = .ok c := by
  have hliteral : ("#" ++ hexOf channels).toList = '#' :: channels.flatMap hexPair := by
    simp [hexOf]
  rw [hliteral] at hrecased
  exact read_wrapped (mapM_hexValue?_hexPair channels) hc hrecased hs

/-- A literal is its own wrapping. -/
lemma encloses_self (cs : List Char) : Encloses cs cs :=
  ⟨[], [], [], [], [], [], by simp, by simp, by simp⟩

variable (c : Color)

/-- The channels that rendered values are, with alpha and without. -/
lemma ofDigits?_rendered : ofDigits? ([c.red, c.green, c.blue, c.alpha].flatMap fun n =>
      [clamp n / 16, clamp n % 16]) = some c.clamped ∧
    ofDigits? ([c.red, c.green, c.blue].flatMap fun n => [clamp n / 16, clamp n % 16])
      = some { c.clamped with alpha := 255 } := by
  have hpair : ∀ n, clamp n / 16 * 16 + clamp n % 16 = clamp n := fun n => Nat.div_add_mod' _ 16
  constructor
  · simp only [List.flatMap_cons, List.flatMap_nil, List.cons_append, List.nil_append, ofDigits?,
      hpair]
    rfl
  · simp only [List.flatMap_cons, List.flatMap_nil, List.cons_append, List.nil_append, ofDigits?,
      hpair]
    rfl

/-- The eight digits of a colour are read as the colour in the range. -/
lemma read_rgbaHex : read (.str ("#" ++ c.rgbaHex)) = .ok c.clamped :=
  read_wrapped_hexOf (ofDigits?_rendered c).1 rfl (encloses_self _)

/-- Its six digits are read without alpha. -/
lemma read_rgbHex : read (.str ("#" ++ c.rgbHex)) = .ok { c.clamped with alpha := 255 } :=
  read_wrapped_hexOf (ofDigits?_rendered c).2 rfl (encloses_self _)

/-- **Rendered colours are read back.** Reading the digits of a colour behind a mark gives the colour
with its channels in the range, and without digits for alpha it is opaque; the digits with alpha
first are those with alpha last, rotated by two. What is read does not depend on the case of the
letters, nor on quote marks around the literal and white space inside and outside of them. -/
theorem read_rendered :
    read (.str ("#" ++ c.rgbaHex)) = .ok c.clamped ∧
    read (.str ("#" ++ c.rgbHex)) = .ok { c.clamped with alpha := 255 } ∧
    c.argbHex.toList = c.rgbaHex.toList.rotateRight 2 ∧
    ∀ literal ∈ ["#" ++ c.rgbaHex, "#" ++ c.rgbHex], ∀ (recased : List Char) (s : String),
      IsRecased literal.toList recased → Encloses recased s.toList →
        read (.str s) = read (.str literal) := by
  refine ⟨read_rgbaHex c, read_rgbHex c, ?_, ?_⟩
  · rw [argbHex, rgbaHex, hexOf, hexOf, String.toList_ofList, String.toList_ofList]
    rfl
  · intro literal hmem recased s hrecased hs
    rcases List.mem_cons.mp hmem with rfl | hmem
    · rw [read_rgbaHex]
      exact read_wrapped_hexOf (ofDigits?_rendered c).1 hrecased hs
    · obtain rfl := List.mem_singleton.mp hmem
      rw [read_rgbHex]
      exact read_wrapped_hexOf (ofDigits?_rendered c).2 hrecased hs

/-- Channels on both sides of the range, and digits in both cases between quote marks of both kinds. -/
theorem read_rendered_wrapped :
    IsRecased ("#" ++ rgbaHex ⟨-3, 300, 171, 205⟩).toList "#00fFaBcD".toList ∧
      Encloses "#00fFaBcD".toList "\t'\" #00fFaBcD'' ".toList ∧
      read (.str "\t'\" #00fFaBcD'' ") = .ok ⟨0, 255, 171, 205⟩ := by
  have hrecased : IsRecased ("#" ++ rgbaHex ⟨-3, 300, 171, 205⟩).toList "#00fFaBcD".toList := by
    decide
  have hencloses : Encloses "#00fFaBcD".toList "\t'\" #00fFaBcD'' ".toList :=
    ⟨['\t'], ['\'', '"'], [' '], [], ['\'', '\''], [' '], by decide,
      List.all_eq_true.mp (by decide), List.all_eq_true.mp (by decide)⟩
  obtain ⟨hread, -, -, hwrapped⟩ := read_rendered ⟨-3, 300, 171, 205⟩
  exact ⟨hrecased, hencloses, (hwrapped _ (by simp) _ _ hrecased hencloses).trans hread⟩

end Rendered

end StyleTokens.Color
