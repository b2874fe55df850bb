import StyleTokens.Proofs.Identifiers

/-!
Names that keep the words of a path apart.

* `Text.segmentsBy_eq_splitOnP`: the parts of a text between separators;
* `IsWord`, `isWord_of_mem_wordsOf`: words are runs of lower case letters and digits;
* `Words.splitCase_eq_self`, `Words.ofText_intercalate`: words that are joined with a mark between
  them are found again;
* `NameStyle.mark?`, `wordsOf_join`: so are those in a name whose style has a mark;
  `wordsOf_newName` adds those of a prefix;
* `marked_names_faithful`: what such names keep of a path. `marked_names_faithful_mixed` are two of
  them.
-/

namespace StyleTokens

open Words (isDigit isLower isUpper isWordChar)

/-! ### Words -/

/-- The parts of a text are those of the library. -/
lemma Text.segmentsBy_eq_splitOnP (isSep : Char → Bool) (cs : List Char) :
    segmentsBy isSep cs = cs.splitOnP isSep := by
  induction cs with
  | nil => rfl
  | cons c cs ih =>
      rw [segmentsBy, List.splitOnP_cons_eq_if_modifyHead, ih]
      split
      · rfl
      · obtain ⟨part, parts, hparts⟩ :=
          List.exists_cons_of_ne_nil (List.splitOnP_ne_nil isSep cs)
        rw [hparts]
        rfl

/-- The text is a run of lower case letters and digits. -/
structure IsWord (w : List Char) : Prop where
  ne_nil : w ≠ []
  mem : ∀ c ∈ w, isLower c = true ∨ isDigit c = true

/-- The words of a path are runs of lower case letters and digits. -/
lemma isWord_of_mem_wordsOf {path : Path} {w : List Char} (h : w ∈ wordsOf path) : IsWord w := by
  refine ⟨ne_nil_of_mem_wordsOf h, fun c hc => ?_⟩
  have hmem : c ∈ (wordsOf path).flatten := List.mem_flatten.mpr ⟨w, h, hc⟩
  rw [flatten_wordsOf, List.mem_map] at hmem
  obtain ⟨d, hd, rfl⟩ := hmem
  have hword := (List.mem_filter.mp hd).2
  cases hupper : isUpper d with
  | true => exact .inl (Words.isLower_toLower hupper)
  | false =>
      rw [Words.toLower_eq_self hupper]
      simpa [isWordChar, hupper] using hword

namespace Words

variable {w : List Char} {ws : List (List Char)} {mark : Char}

/-- Case does not change in a text without upper case letters. -/
lemma splitCase_eq_self {cs : List Char} (h : ∀ c ∈ cs, isUpper c = false) :
    splitCase cs = cs := by
  fun_induction splitCase cs <;> simp_all [rises, capitalises]

lemma isWordChar_of_mem (h : IsWord w) {c : Char} (hc : c ∈ w) : isWordChar c = true := by
  rcases h.mem c hc with hc | hc <;> simp [isWordChar, hc]

/-- Words are as they are in lower case. -/
lemma map_toLower_eq_self (h : IsWord w) : w.map Char.toLower = w := by
  rw [List.map_congr_left fun c hc => toLower_eq_self (isUpper_eq_false (h.mem c hc)), List.map_id']

/-- No letter is in upper case where words are joined with a mark. -/
lemma isUpper_eq_false_of_mem_intercalate (hmark : isWordChar mark = false)
    (h : ∀ w ∈ ws, IsWord w) : ∀ c ∈ [mark].intercalate ws, isUpper c = false := by
  have hlow : isUpper mark = false := by
    rw [isWordChar, Bool.or_eq_false_iff, Bool.or_eq_false_iff] at hmark
    exact hmark.1.2
  induction ws with
  | nil => simp
  | cons w ws ih =>
      obtain ⟨hw, hws⟩ := List.forall_mem_cons.mp h
      have hfirst : ∀ c ∈ w, isUpper c = false := fun c hc => isUpper_eq_false (hw.mem c hc)
      cases ws with
      | nil => simpa using hfirst
      | cons next ws =>
          rw [List.intercalate_cons_cons, List.append_assoc, List.singleton_append]
          exact List.forall_mem_append.mpr ⟨hfirst, List.forall_mem_cons.mpr ⟨hlow, ih hws⟩⟩

/-- Words that are joined with a mark between them are the runs of letters and digits. -/
lemma filter_splitOnP_intercalate (hmark : isWordChar mark = false) (h : ∀ w ∈ ws, IsWord w) :
    (([mark].intercalate ws).splitOnP fun c => !isWordChar c).filter (· ≠ []) = ws := by
  induction ws with
  | nil => rfl
  | cons w ws ih =>
      obtain ⟨hw, hws⟩ := List.forall_mem_cons.mp h
      have hsingle : w.splitOnP (fun c => !isWordChar c) = [w] :=
        List.splitOnP_eq_singleton fun c hc => by simp [isWordChar_of_mem hw hc]
      cases ws with
      | nil => simp [hsingle, hw.ne_nil]
      | cons next ws =>
          rw [List.intercalate_cons_cons, List.append_assoc, List.singleton_append,
            List.splitOnP_append_cons _ _ (by simp [hmark]), hsingle, List.filter_append, ih hws]
          simp [hw.ne_nil]

/-- **Words that are joined with a mark between them are found again.** -/
theorem ofText_intercalate (hmark : isWordChar mark = false) (h : ∀ w ∈ ws, IsWord w) :
    ofText ([mark].intercalate ws) = ws := by
  rw [ofText, runs, splitCase_eq_self (isUpper_eq_false_of_mem_intercalate hmark h),
    Text.segmentsBy_eq_splitOnP, filter_splitOnP_intercalate hmark h,
    List.map_congr_left fun w hw => map_toLower_eq_self (h w hw), List.map_id']

end Words

/-! ### Names -/

section Names

variable {style style' : NameStyle} {path path' : Path}

/-- The mark between the words of a name, in the styles that have one. -/
def NameStyle.mark? : NameStyle → Option Char
  | .kebab => some '-'
  | .snake => some '_'
  | _ => none

lemma NameStyle.exists_mark (h : style ∈ [NameStyle.kebab, .snake]) :
    ∃ mark, style.mark? = some mark ∧ isWordChar mark = false := by
  rcases List.mem_pair.mp h with rfl | rfl
  · exact ⟨'-', rfl, by decide⟩
  · exact ⟨'_', rfl, by decide⟩

lemma NameStyle.join_eq {mark : Char} (h : style.mark? = some mark) (path : Path) :
    style.join path = String.ofList ([mark].intercalate (wordsOf path)) := by
  cases style with
  | kebab => cases h; rfl
  | snake => cases h; rfl
  | _ => cases h

/-- The words of the first key come first. -/
lemma wordsOf_cons (key : String) (path : Path) :
    wordsOf (key :: path) = wordsOf [key] ++ wordsOf path := by
  simp [wordsOf]

/-- **A name with marks has the words of its path.** -/
theorem wordsOf_join (h : style ∈ [NameStyle.kebab, .snake]) (path : Path) :
    wordsOf [style.join path] = wordsOf path := by
  obtain ⟨mark, hstyle, hmark⟩ := NameStyle.exists_mark h
  have hwords : Words.ofText ([mark].intercalate (wordsOf path)) = wordsOf path :=
    Words.ofText_intercalate hmark fun w hw => isWord_of_mem_wordsOf hw
  rw [NameStyle.join_eq hstyle]
  simpa [wordsOf] using hwords

/-- The words of a path are all that a name is made of. -/
lemma join_congr (h : wordsOf path = wordsOf path') (style : NameStyle) :
    style.join path = style.join path' := by
  cases style <;> simp only [NameStyle.join, camelName, pascalName, kebabName, snakeName, h]

/-- A prefix adds its words in front of those of the path. -/
lemma wordsOf_newName (h : style ∈ [NameStyle.kebab, .snake]) {options : Fields} {s : String}
    (hstart : options.getD "prefix" = .str s) (path : Path) :
    wordsOf [Transform.newName style options path] = wordsOf [s] ++ wordsOf path := by
  rw [Transform.newName, hstart, wordsOf_join h]
  by_cases hs : s = ""
  · rw [hs]
    rfl
  · have htruthy : (Json.str s).isTruthy = true := by simpa [Json.isTruthy] using hs
    rw [if_pos htruthy, wordsOf_cons]
    rfl

/-- **What names with marks keep of a path.** The words of a path are runs of lower case letters and
digits.
* A name with a mark between its words has the words of the path, so that a name in either style can
  be made of it as of the path.
* Paths have the same name exactly if they have the same words.
* Where a text is set as a prefix, a token is given a name of the words of both. -/
theorem marked_names_faithful (path : Path) :
    (∀ w ∈ wordsOf path, IsWord w) ∧
    ∀ style ∈ [NameStyle.kebab, .snake],
      wordsOf [style.join path] = wordsOf path ∧
      (∀ style' ∈ [NameStyle.kebab, .snake], style'.join [style.join path] = style'.join path) ∧
      (∀ path', style.join path = style.join path' ↔ wordsOf path = wordsOf path') ∧
      ∀ options s t, Fields.getD options "prefix" = .str s → t.path = path →
        ∃ name, (Transform.name style).apply options t = .ok { t with name } ∧
          wordsOf [name] = wordsOf [s] ++ wordsOf path := by
  refine ⟨fun w hw => isWord_of_mem_wordsOf hw, fun style hstyle => ?_⟩
  have hwords := wordsOf_join hstyle path
  refine ⟨hwords, fun style' _ => join_congr hwords style', fun path' => ⟨fun hname => ?_, ?_⟩,
    fun options s t hstart hpath => ?_⟩
  · rw [← hwords, hname, wordsOf_join hstyle]
  · exact fun h => join_congr h style
  · exact ⟨Transform.newName style options t.path, rfl, hpath ▸ wordsOf_newName hstyle hstart _⟩

/-- A token whose path has capitals, letters beyond ASCII, separators and an empty key. -/
def mixedToken : Token := { path := ["fontSize", "Größe--XL_2", ""], value := .int 16 }

/-- The name of the token with hyphens is made of the one with underscores, and has the words of a
prefix in front of those of the path. -/
theorem marked_names_faithful_mixed :
    wordsOf mixedToken.path = ["font", "size", "gr", "e", "xl", "2"].map String.toList ∧
      kebabName [snakeName mixedToken.path] = kebabName mixedToken.path ∧
      ∃ name, (Transform.name .kebab).apply [("prefix", .str "myApp")] mixedToken
          = .ok { mixedToken with name } ∧
        wordsOf [name]
          = ["my", "app", "font", "size", "gr", "e", "xl", "2"].map String.toList := by
  obtain ⟨-, hstyles⟩ := marked_names_faithful mixedToken.path
  obtain ⟨-, hnames, -, -⟩ := hstyles .snake (by decide)
  obtain ⟨-, -, -, hstart⟩ := hstyles .kebab (by decide)
  obtain ⟨name, happly, hwords⟩ := hstart [("prefix", .str "myApp")] "myApp" mixedToken rfl rfl
  exact ⟨by decide, hnames .kebab (by decide), name, happly, hwords.trans (by decide)⟩

end Names

end StyleTokens
