import StyleTokens.Proofs.Findings
import StyleTokens.Proofs.Reading

/-!
Which values of colours are reported.

* `Color.IsForeign`: characters that no colour in functional form has;
  `Color.functionForm?_eq_none`: a text with such a character is none;
* `Color.readChars_of_brace`: a text with an opening brace is no colour at all;
* `Color.IsRefused`: literals that are refused, and are not just too great to be rounded;
* `ReportsColor`: the check of a token reports its colour; `TokenEntry.findings_color`: the findings
  on a token with the type tag of colours;
* `invalidColor_reported_iff`: when such a colour is reported, and when that is so exactly for the
  refused texts without references. `unclosed_brace_unreported` has a text that goes unreported, and
  one that is reported though it is a reference.
-/

namespace StyleTokens

/-! ### Characters that colours have no place for -/

section Passing

variable {d : Char} {cs rest : List Char}

/-- A character of another class is not among those that are dropped. -/
lemma mem_dropWhile {p : Char → Bool} (hp : p d = false) (h : d ∈ cs) : d ∈ cs.dropWhile p := by
  rw [← List.takeWhile_append_dropWhile (p := p) (l := cs)] at h
  refine (List.mem_append.mp h).resolve_left fun hfront => ?_
  have hd := List.mem_takeWhile_imp hfront
  rw [hp] at hd
  cases hd

/-- A character of another class is not trimmed. -/
lemma Text.mem_trim {p : Char → Bool} (hp : p d = false) (h : d ∈ cs) : d ∈ Text.trim p cs := by
  rw [Text.trim, List.mem_reverse]
  exact mem_dropWhile hp (List.mem_reverse.mpr (mem_dropWhile hp h))

namespace Color

/-- A character that stands nowhere in a colour in functional form. -/
structure IsForeign (d : Char) : Prop where
  blank : Text.isBlank d = false
  decimal : Text.isDecimal d = false
  mark : d ∉ ['.', ',', ')']
  name : d.toLower ∉ ['r', 'g', 'b', 'a', '(']

namespace IsForeign

variable (hd : IsForeign d)
include hd

/-- A foreign character is not part of a numeral. -/
lemma mem_of_read? {x : Numeral} (h : Numeral.read? cs = some (x, rest)) (hmem : d ∈ cs) :
    d ∈ rest := by
  have hrest : d ∈ cs.dropWhile Text.isDecimal := mem_dropWhile hd.decimal hmem
  have hpoint : d ≠ '.' := fun he => hd.mark (by simp [he])
  rw [Numeral.read?, Numeral.spanDigits] at h
  dsimp only at h
  split at h
  · next afterPoint hafter =>
      rw [hafter] at hrest
      have hmem : d ∈ afterPoint := (List.mem_cons.mp hrest).resolve_left hpoint
      split at h
      · cases h
      · cases h
        exact mem_dropWhile hd.decimal hmem
  · split at h
    · cases h
    · cases h
      exact hrest

/-- A foreign character is not part of an argument. -/
lemma mem_of_readArgument? {x : Numeral} (h : readArgument? cs = some (x, rest)) (hmem : d ∈ cs) :
    d ∈ rest := by
  obtain ⟨⟨x', rest'⟩, hread, h⟩ := Option.bind_eq_some_iff.mp h
  cases h
  exact mem_dropWhile hd.blank (hd.mem_of_read? hread (mem_dropWhile hd.blank hmem))

lemma mem_of_readNextArgument? {x : Numeral} (h : readNextArgument? cs = some (x, rest))
    (hmem : d ∈ cs) : d ∈ rest := by
  have hcomma : d ≠ ',' := fun he => hd.mark (by simp [he])
  rw [readNextArgument?.eq_def] at h
  split at h
  · exact hd.mem_of_readArgument? h ((List.mem_cons.mp hmem).resolve_left hcomma)
  · cases h

/-- A foreign character is not part of the name of the function. -/
lemma mem_of_afterFunctionName? (h : afterFunctionName? cs = some rest) (hmem : d ∈ cs) :
    d ∈ rest := by
  have hname : ∀ n, (cs.map Char.toLower).take n ⊆ ['r', 'g', 'b', 'a', '('] → d ∈ cs.drop n := by
    intro n hfront
    rw [← List.take_append_drop n cs] at hmem
    refine (List.mem_append.mp hmem).resolve_left fun hmem => hd.name (hfront ?_)
    rw [← List.map_take]
    exact List.mem_map_of_mem hmem
  rw [afterFunctionName?] at h
  split at h
  · next hlower =>
      cases h
      exact hname 5 (by rw [hlower]; simp)
  · next hlower =>
      cases h
      exact hname 4 (by rw [hlower]; simp)
  · cases h

end IsForeign

/-- A text with a foreign character is no colour in functional form. -/
theorem functionForm?_eq_none (hd : IsForeign d) (hmem : d ∈ cs) : functionForm? cs = none := by
  have hclose : d ∉ [')'] := fun h => hd.mark (by simp [List.mem_singleton.mp h])
  rw [Option.eq_none_iff_forall_ne_some]
  intro form h
  obtain ⟨afterName, hname, h⟩ := Option.bind_eq_some_iff.mp h
  obtain ⟨⟨r, afterRed⟩, hr, h⟩ := Option.bind_eq_some_iff.mp h
  obtain ⟨⟨g, afterGreen⟩, hg, h⟩ := Option.bind_eq_some_iff.mp h
  obtain ⟨⟨b, afterBlue⟩, hb, h⟩ := Option.bind_eq_some_iff.mp h
  have hmem := hd.mem_of_afterFunctionName? hname hmem
  have hmem := hd.mem_of_readArgument? hr hmem
  have hmem := hd.mem_of_readNextArgument? hg hmem
  have hmem := hd.mem_of_readNextArgument? hb hmem
  dsimp only at h
  split at h
  · exact hclose hmem
  · obtain ⟨⟨a, afterAlpha⟩, ha, h⟩ := Option.bind_eq_some_iff.mp h
    have hmem := hd.mem_of_readNextArgument? ha hmem
    dsimp only at h
    split at h
    · exact hclose hmem
    · cases h

end Color

end Passing

/-! ### Braces -/

namespace Color

lemma isForeign_brace : IsForeign '{' := ⟨by decide, by decide, by decide, by decide⟩

/-- What is left of a literal keeps an opening brace. -/
lemma brace_mem_core {cs : List Char} (h : '{' ∈ cs) : '{' ∈ core cs :=
  Text.mem_trim (by decide) (Text.mem_trim (by decide) (Text.mem_trim (by decide) h))

/-- A text with a character that is no hexadecimal digit is no list of digits. -/
lemma mapM_hexValue?_eq_none {d : Char} (hd : Text.hexValue? d = none) {cs : List Char}
    (h : d ∈ cs) : cs.mapM Text.hexValue? = none := by
  induction cs with
  | nil => cases h
  | cons c cs ih =>
      rw [List.mapM_cons]
      rcases List.mem_cons.mp h with rfl | h
      · rw [hd]
        rfl
      · rw [ih h]
        cases Text.hexValue? c <;> rfl

/-- An opening brace is no digit. -/
lemma ofHex_of_brace {cs : List Char} (h : '{' ∈ cs) :
    ofHex cs = .error (.notHex (String.ofList cs)) := by
  have hbrace : Text.hexValue? '{' = none := rfl
  rw [ofHex, mapM_hexValue?_eq_none hbrace h]

/-- **A literal with an opening brace is no colour**, and is refused for what it is made of. -/
theorem readChars_of_brace {cs : List Char} (h : '{' ∈ cs) :
    ∃ text, readChars cs = .error (.notHex text) := by
  have hcore := brace_mem_core h
  rw [readChars]
  split
  · next hform =>
      rw [functionForm?_eq_none isForeign_brace hcore] at hform
      cases hform
  · split
    · next digits hdigits =>
        rw [hdigits] at hcore
        exact ⟨_, ofHex_of_brace (by simpa using hcore)⟩
    · exact ⟨_, ofHex_of_brace hcore⟩

/-- The literal is refused. Literals that are too great to be rounded are not. -/
def IsRefused (s : String) : Prop := ∃ e, read (.str s) = .error e ∧ e ≠ .channelInfinite

lemma isRefused_of_brace {s : String} (h : '{' ∈ s.toList) : IsRefused s := by
  obtain ⟨text, hread⟩ := readChars_of_brace h
  exact ⟨_, hread, by simp⟩

end Color

/-- References begin with an opening brace. -/
lemma brace_mem_of_references {s : String} (h : (Json.str s).references ≠ []) : '{' ∈ s.toList := by
  by_contra hbrace
  refine h ?_
  rw [Json.references, List.map_eq_nil_iff, Reference.names_eq_nil_iff]
  exact Reference.free_iff_pieces.mpr (Reference.pieces_eq_chars hbrace)

/-! ### Findings on colours -/

section Reports

variable {file path s : String} {fields : Fields}

/-- The words for a colour that cannot be read. -/
def invalidColor (file path s : String) : String :=
  file ++ ": Token \"" ++ path ++ "\"" ++ " has invalid color value \"" ++ s ++ "\""

/-- The check of the token reports the colour. -/
def ReportsColor (file path s : String) (fields : Fields) : Prop :=
  ∃ f, checkToken file path fields = .ok f ∧ invalidColor file path s ∈ f.errors

/-- The findings on a token with a value and the type tag of colours are those on its colour. -/
lemma TokenEntry.findings_color {r : TokenEntry} (htag : r.tag = .str "color")
    (hvalue : r.value.isNull = false) :
    r.findings file = checkColor (r.location file) r.value := by
  have hknown : decide ((Json.str "color").IsAmong knownTags) = true := by decide
  have hnumeric : decide ((Json.str "color").IsAmong numericTags) = false := by decide
  have hcolor : (Json.str "color").isText "color" = true := by decide
  rw [findings_plain hvalue (by rw [htag]; rfl) (by rw [htag]; rfl), htag, hknown, hnumeric, hcolor,
    if_pos rfl]
  simp only [Bool.not_true, Bool.false_and, Findings.warnIf_false, Findings.empty_append,
    Findings.append_empty]
  have hmap : ∀ x : Except CheckFailure Findings, x.map (fun f => f) = x := by
    rintro (e | f) <;> rfl
  exact hmap _

lemma checkToken_color (htag : fields.declared "type" = .str "color")
    (hvalue : fields.declared "value" = .str s) : checkToken file path fields
      = checkColor (file ++ ": Token \"" ++ path ++ "\"") (.str s) := by
  rw [checkToken_eq, TokenEntry.findings_color htag (by rw [hvalue]; rfl), hvalue]
  rfl

/-- The check of a colour says nothing where the text begins with an opening brace. -/
lemma checkColor_of_brace (location : String) (h : s.toList.head? = some '{') :
    checkColor location (.str s) = .ok {} := by
  have hbegins : beginsReference (.str s) = true := by simp [beginsReference, h]
  rw [checkColor, if_pos hbegins]

/-- Elsewhere the colour is read. -/
lemma checkColor_of_literal (location : String) (h : s.toList.head? ≠ some '{') :
    checkColor location (.str s) = match Color.read (.str s) with
      | .ok _ => .ok {}
      | .error .channelInfinite => .error .channelInfinite
      | .error _ => .ok (.error (location ++ " has invalid color value \"" ++ s ++ "\"")) := by
  have hbegins : ¬ beginsReference (.str s) = true := by simp [beginsReference, h]
  rw [checkColor, if_neg hbegins]
  cases Color.read (.str s) with
  | ok c => rfl
  | error e => cases e <;> rfl

section Colour

variable (htag : fields.declared "type" = .str "color") (hvalue : fields.declared "value" = .str s)
include htag hvalue

/-- The check ends exactly at a literal that is too great to be rounded. -/
lemma exists_checkToken_eq_error_iff : (∃ e, checkToken file path fields = .error e) ↔
    Color.read (.str s) = .error .channelInfinite := by
  rw [checkToken_color htag hvalue]
  by_cases hhead : s.toList.head? = some '{'
  · obtain ⟨text, hread⟩ := Color.readChars_of_brace (List.mem_of_mem_head? hhead)
    have hread : Color.read (.str s) = .error (.notHex text) := hread
    simp [checkColor_of_brace _ hhead, hread]
  · rw [checkColor_of_literal _ hhead]
    split
    · next hread => simp [hread]
    · next hread => simp [hread]
    · next hother hread => simpa [hread] using hother

/-- A colour is reported exactly if the text does not begin with an opening brace and is refused. -/
lemma reportsColor_iff :
    ReportsColor file path s fields ↔ s.toList.head? ≠ some '{' ∧ Color.IsRefused s := by
  rw [ReportsColor, checkToken_color htag hvalue]
  by_cases hhead : s.toList.head? = some '{'
  · simp [checkColor_of_brace _ hhead, hhead]
  · rw [checkColor_of_literal _ hhead, Color.IsRefused]
    split
    · next hread => simp [hread]
    · next hread => simp [hread]
    · next hother hread =>
        exact iff_of_true ⟨_, rfl, List.mem_singleton.mpr rfl⟩ ⟨hhead, _, hread, hother⟩

end Colour

/-- **The findings on a colour, and what references have to do with them.** The check of a token
with the type tag of colours ends only at a literal that is too great to be rounded. The colour is
reported exactly if its text does not begin with an opening brace and is refused. So the reported
colours are the refused ones without references exactly as far as texts that begin with an opening
brace are those with references. -/
theorem invalidColor_reported_iff (htag : fields.declared "type" = .str "color")
    (hvalue : fields.declared "value" = .str s) :
    ((∃ e, checkToken file path fields = .error e) ↔
      Color.read (.str s) = .error .channelInfinite) ∧
    (ReportsColor file path s fields ↔ s.toList.head? ≠ some '{' ∧ Color.IsRefused s) ∧
    ((ReportsColor file path s fields ↔ (Json.str s).references = [] ∧ Color.IsRefused s) ↔
      (s.toList.head? = some '{' ↔ (Json.str s).references ≠ [])) := by
  have hreports : ReportsColor file path s fields ↔ _ := reportsColor_iff htag hvalue
  refine ⟨exists_checkToken_eq_error_iff htag hvalue, hreports, ?_⟩
  rw [hreports]
  -- either kind of text holds a brace, so a text that is not refused is of neither kind
  have hhead : s.toList.head? = some '{' → Color.IsRefused s := fun h =>
    Color.isRefused_of_brace (List.mem_of_mem_head? h)
  have hreferences : (Json.str s).references ≠ [] → Color.IsRefused s := fun h =>
    Color.isRefused_of_brace (brace_mem_of_references h)
  tauto

/-- A token with a colour, or with what should be one. -/
def inkToken (s : String) : Fields := [("value", .str s), ("type", .str "color")]

/-- A colour without references that is reported, and rightly so. -/
theorem invalidColor_reported_iff_words :
    (inkToken "dark red").declared "type" = .str "color" ∧
      (inkToken "dark red").declared "value" = .str "dark red" ∧
      ReportsColor "tokens.json" "ink" "dark red" (inkToken "dark red") ∧
      (Json.str "dark red").references = [] ∧ Color.IsRefused "dark red" := by
  obtain ⟨-, hreports, hagree⟩ :=
    @invalidColor_reported_iff "tokens.json" "ink" "dark red" (inkToken "dark red") rfl rfl
  have hrefused : Color.IsRefused "dark red" := ⟨_, rfl, by decide⟩
  have hreported := hreports.mpr ⟨by decide, hrefused⟩
  exact ⟨rfl, rfl, hreported, (hagree.mpr (by decide)).mp hreported⟩

/-- The text `{brand` holds no reference and is no colour, and nothing is reported. The reference
`{base}` with a blank before it is reported. -/
theorem unclosed_brace_unreported :
    ((Json.str "\x7bbrand").references = [] ∧ Color.IsRefused "\x7bbrand" ∧
      checkToken "tokens.json" "ink" (inkToken "\x7bbrand") = .ok {}) ∧
    ((Json.str " \x7bbase\x7d").references = ["base"] ∧
      Reference.whole? " \x7bbase\x7d".toList = some "base".toList ∧
      checkToken "tokens.json" "ink" (inkToken " \x7bbase\x7d")
        = .ok (.error (invalidColor "tokens.json" "ink" " \x7bbase\x7d"))) :=
  ⟨⟨rfl, Color.isRefused_of_brace (by decide), rfl⟩, rfl, rfl, rfl⟩

end Reports

end StyleTokens
