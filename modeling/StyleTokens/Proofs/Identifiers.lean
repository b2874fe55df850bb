import StyleTokens.Check.Key
import StyleTokens.Output.Format
import StyleTokens.Proofs.Leaves
import StyleTokens.Proofs.ScriptConstants
import StyleTokens.Token.Transform

/-!
Names as identifiers.

* `IsIdentifier`: a name that begins with a character other than a digit;
* `Words.filter_splitCase`, `Text.flatten_segmentsBy`, `flatten_wordsOf`: the words of a path are
  its letters and digits, in lower case;
* `head?_camelName`, `isIdentifier_camelName_iff`: the first letter or digit of a path begins its
  name;
* `isAccepted_front`, `Document.front_of_mem_flatten`: what a path begins with in a document whose
  keys are as they should be;
* `resolve_transform_camel`: resolved tokens have their names before they are given them;
* `Output.scriptText`, `Output.declared_identifiers_iff`: which of the names that files declare are
  identifiers. `Output.leading_number_no_identifier` declares a number.
-/

namespace StyleTokens

open Words (isDigit isLower isWordChar)

/-- The name begins with a character, and that is no digit. -/
def IsIdentifier (name : String) : Prop :=
  ∃ c cs, name.toList = c :: cs ∧ isDigit c = false

/-! ### Characters -/

namespace Words

lemma isDigit_iff {c : Char} : isDigit c = true ↔ 48 ≤ c.toNat ∧ c.toNat ≤ 57 := by
  simp [isDigit, Char.le_def, UInt32.le_iff_toNat_le]

lemma isLower_iff {c : Char} : isLower c = true ↔ 97 ≤ c.toNat ∧ c.toNat ≤ 122 := by
  simp [isLower, Char.le_def, UInt32.le_iff_toNat_le]

lemma isUpper_iff {c : Char} : isUpper c = true ↔ 65 ≤ c.toNat ∧ c.toNat ≤ 90 := by
  simp [isUpper, Char.le_def, UInt32.le_iff_toNat_le]

/-- Of lower case letters and digits, the letters are no digits. -/
lemma isDigit_eq_false_iff {c : Char} (h : isLower c = true ∨ isDigit c = true) :
    isDigit c = false ↔ isLower c = true := by
  rw [Bool.eq_false_iff, ne_eq, isDigit_iff, isLower_iff]
  rw [isDigit_iff, isLower_iff] at h
  omega

lemma isUpper_eq_false {c : Char} (h : isLower c = true ∨ isDigit c = true) :
    isUpper c = false := by
  rw [isLower_iff, isDigit_iff] at h
  rw [Bool.eq_false_iff, ne_eq, isUpper_iff]
  omega

lemma isLower_toLower {c : Char} (h : isUpper c = true) : isLower c.toLower = true := by
  rw [isUpper_iff] at h
  rw [isLower_iff, toNat_toLower, if_pos h]
  omega

/-- Only upper case letters change in lower case. -/
lemma toLower_eq_self {c : Char} (h : isUpper c = false) : c.toLower = c := by
  rw [Bool.eq_false_iff, ne_eq, isUpper_iff] at h
  exact Char.toNat_inj.mp (by rw [toNat_toLower, if_neg h])

/-- Digits stay what they are in lower case, and letters do not become digits. -/
lemma isDigit_toLower (c : Char) : isDigit c.toLower = isDigit c := by
  rw [Bool.eq_iff_iff, isDigit_iff, isDigit_iff, toNat_toLower]
  split <;> omega

/-! ### Words -/

/-- Blanks at changes of case add no letters and digits. -/
lemma filter_splitCase (cs : List Char) :
    (splitCase cs).filter isWordChar = cs.filter isWordChar := by
  have hblank : isWordChar ' ' = false := by decide
  fun_induction splitCase cs <;> simp_all [List.filter_cons]

end Words

/-- The parts of a text between separators are the text without the separators. -/
lemma Text.flatten_segmentsBy (isSep : Char → Bool) (cs : List Char) :
    (segmentsBy isSep cs).flatten = cs.filter fun c => !isSep c := by
  fun_induction segmentsBy isSep cs <;> simp_all

/-- The words of a path are its letters and digits, in lower case. -/
lemma flatten_wordsOf (path : Path) :
    (wordsOf path).flatten = ((path.flatMap String.toList).filter isWordChar).map Char.toLower := by
  induction path with
  | nil => rfl
  | cons key rest ih =>
      have hkey : (Words.ofText key.toList).flatten
          = (key.toList.filter isWordChar).map Char.toLower := by
        rw [Words.ofText, ← List.map_flatten, Words.runs, List.flatten_filter_ne_nil,
          Text.flatten_segmentsBy]
        simp [Words.filter_splitCase]
      rw [wordsOf] at ih ⊢
      rw [List.flatMap_cons, List.flatten_append, ih, hkey, List.flatMap_cons, List.filter_append,
        List.map_append]

lemma ne_nil_of_mem_wordsOf {path : Path} {w : List Char} (h : w ∈ wordsOf path) : w ≠ [] := by
  rw [wordsOf, List.mem_flatMap] at h
  obtain ⟨key, -, h⟩ := h
  obtain ⟨run, hrun, rfl⟩ := List.mem_map.mp h
  rw [Words.runs, List.mem_filter] at hrun
  simpa using hrun.2

/-! ### Names of paths -/

/-- **The first letter or digit of a path begins its name**, in lower case. -/
theorem head?_camelName (path : Path) : (camelName path).toList.head?
    = ((path.flatMap String.toList).find? isWordChar).map Char.toLower := by
  rw [← List.head?_filter, ← List.head?_map, ← flatten_wordsOf, camelName]
  cases hwords : wordsOf path with
  | nil => rfl
  | cons w ws =>
      obtain ⟨c, cs, rfl⟩ :=
        List.exists_cons_of_ne_nil (ne_nil_of_mem_wordsOf (hwords ▸ List.mem_cons_self ..))
      simp

lemma isIdentifier_camelName_iff {path : Path} : IsIdentifier (camelName path) ↔
    ∃ c, (path.flatMap String.toList).find? isWordChar = some c ∧ isDigit c = false := by
  have hhead : IsIdentifier (camelName path) ↔
      ∃ c, (camelName path).toList.head? = some c ∧ isDigit c = false := by
    simp only [IsIdentifier, List.head?_eq_some_iff]
    exact ⟨fun ⟨c, cs, h, hc⟩ => ⟨c, ⟨cs, h⟩, hc⟩, fun ⟨c, ⟨cs, h⟩, hc⟩ => ⟨c, cs, h, hc⟩⟩
  rw [hhead, head?_camelName]
  simp only [Option.map_eq_some_iff]
  constructor
  · rintro ⟨_, ⟨c, hc, rfl⟩, hdigit⟩
    exact ⟨c, hc, (Words.isDigit_toLower c).symm.trans hdigit⟩
  · rintro ⟨c, hc, hdigit⟩
    exact ⟨_, ⟨c, hc, rfl⟩, (Words.isDigit_toLower c).trans hdigit⟩

/-! ### Keys that are as they should be -/

/-- A key that follows the convention begins with a lower case letter or a digit. -/
lemma isAccepted_front {cs : List Char} (h : isAccepted cs = true) :
    ∃ c rest, cs = c :: rest ∧ (isLower c = true ∨ isDigit c = true) := by
  have hfront : ∀ {cs}, isConventional cs = true →
      ∃ c rest, cs = c :: rest ∧ (isLower c = true ∨ isDigit c = true) := by
    intro cs h
    rw [isConventional.eq_def] at h
    split at h
    · cases h
    · next c rest =>
        refine ⟨c, rest, rfl, ?_⟩
        split at h
        · next hlower => exact .inl hlower
        · exact .inr (Bool.and_eq_true_iff.mp h).1
  rw [isAccepted, Bool.or_eq_true, Bool.and_eq_true] at h
  rcases h with h | ⟨hlast, h⟩
  · exact hfront h
  · obtain ⟨c, rest, hcs, hc⟩ := hfront h
    refine ⟨c, rest ++ ['\n'], ?_, hc⟩
    rw [← List.cons_append, ← hcs]
    exact (List.dropLast_append_getLast? _ (by simpa using hlast)).symm

namespace Document

variable {label : String} {t : Token}

/-- A token at a key has the key in its path, and nothing behind it if that is metadata. -/
lemma path_of_mem_tokensAt {path : Path} {key : String} {x : Json}
    (h : t ∈ tokensAt label path key x) :
    ∃ rest, t.path = path ++ key :: rest ∧ (isMetadataKey key = true → rest = []) := by
  by_cases hkey : isMetadataKey key = true
  · cases x with
    | obj fields =>
        rw [tokensAt, if_pos hkey] at h
        split at h
        · obtain rfl := List.mem_singleton.mp h
          exact ⟨[], rfl, fun _ => rfl⟩
        · cases h
    | _ => simp [tokensAt] at h
  · obtain ⟨rest, fields, rfl⟩ := exists_node_of_mem_tokensAt h
    exact ⟨rest, rfl, fun hmetadata => absurd hmetadata hkey⟩

/-- In a document without messages for its keys, the path of a token is a key of metadata, or begins
with a key that follows the convention. -/
lemma front_of_mem_flatten {doc : Document} {file : String}
    (hclean : keyMessages file doc.fields = []) (ht : t ∈ doc.flatten) :
    ∃ key rest, t.path = key :: rest ∧
      (isMetadataKey key = true ∧ rest = [] ∨
        isMetadataKey key = false ∧ isAccepted key.toList = true) := by
  rw [keyMessages] at hclean
  rw [flatten] at ht
  generalize doc.fields = fields at hclean ht
  induction fields with
  | nil => simp [tokensIn] at ht
  | cons entry fields ih =>
      obtain ⟨key, x⟩ := entry
      rw [keyMessagesIn, List.append_eq_nil_iff, List.append_eq_nil_iff] at hclean
      obtain ⟨⟨hkey, -⟩, hrest⟩ := hclean
      rw [tokensIn] at ht
      rcases List.mem_append.mp ht with ht | ht
      · obtain ⟨rest, hpath, hmetadata⟩ := path_of_mem_tokensAt ht
        refine ⟨key, rest, hpath, ?_⟩
        cases hdollar : isMetadataKey key with
        | true => exact .inl ⟨rfl, hmetadata hdollar⟩
        | false =>
            refine .inr ⟨rfl, ?_⟩
            by_contra hodd
            rw [keyMessage?, if_neg (by simp [hdollar, hodd])] at hkey
            cases hkey
      · exact ih hrest ht

end Document

/-- In documents without messages for their keys, the name of a path is an identifier if and only if
the first key begins with a letter, or is metadata whose first letter or digit is a letter. -/
lemma isIdentifier_iff_of_clean {docs : List Document}
    (hclean : ∀ doc ∈ docs, ∃ file, keyMessages file doc.fields = []) {path : Path}
    (hpath : path ∈ definedPaths docs) :
    IsIdentifier (camelName path) ↔ ∃ key rest, path = key :: rest ∧
      ((∃ c cs, key.toList = c :: cs ∧ isLower c = true) ∨
        isMetadataKey key = true ∧
          ∃ c, key.toList.find? isWordChar = some c ∧ isDigit c = false) := by
  rw [definedPaths, List.mem_eraseDups, List.mem_map] at hpath
  obtain ⟨t, ht, rfl⟩ := hpath
  obtain ⟨doc, hdoc, ht⟩ := List.mem_flatMap.mp ht
  obtain ⟨file, hfile⟩ := hclean doc hdoc
  obtain ⟨key, rest, hpath, hkey⟩ := Document.front_of_mem_flatten hfile ht
  rw [isIdentifier_camelName_iff, hpath, List.flatMap_cons]
  have hcons : ∀ P : String → Prop,
      (∃ key' rest', key :: rest = key' :: rest' ∧ P key') ↔ P key := by simp
  rw [hcons]
  rcases hkey with ⟨hmetadata, rfl⟩ | ⟨hmetadata, haccepted⟩
  · have hdollar : ¬ ∃ c cs, key.toList = c :: cs ∧ isLower c = true := by
      rintro ⟨c, cs, hkey, hlower⟩
      rw [isMetadataKey, hkey, List.head?_cons, beq_iff_eq, Option.some.injEq] at hmetadata
      rw [hmetadata] at hlower
      exact absurd hlower (by decide)
    rw [or_iff_right hdollar]
    simp [hmetadata]
  · obtain ⟨c, cs, hkey, hc⟩ := isAccepted_front haccepted
    have hword : isWordChar c = true := by
      rcases hc with hc | hc <;> simp [isWordChar, hc]
    simp [hkey, hword, hmetadata, Words.isDigit_eq_false_iff hc]

/-! ### Resolved tokens -/

/-- Resolved tokens have their names in camel case before they are given them. -/
lemma resolve_transform_camel {docs : List Document} {c : TokenList} {options : Fields}
    (h : resolve docs = .ok c) (hbare : (options.getD "prefix").isTruthy = false) :
    c.transform ["name/camel"] options = .ok c := by
  have hchain : Transform.chain ["name/camel"] = .ok [.name .camel] := rfl
  have htoken : ∀ t ∈ c.tokens, t.transform [.name .camel] options = .ok t := by
    intro t ht
    have hname : Transform.newName .camel options t.path = t.name := by
      rw [Transform.newName, hbare, Output.name_of_mem_resolve h ht]
      rfl
    change Except.ok { t with name := Transform.newName .camel options t.path } = Except.ok t
    rw [hname]
  have htokens : c.tokens.mapM (Token.transform [.name .camel] options) = .ok c.tokens :=
    mapM_eq_ok_iff.mpr (List.forall₂_same.mpr htoken)
  rw [TokenList.transform, hchain, ok_bind, htokens]
  rfl

namespace Output

/-- A file with constants, as text. -/
def scriptText (options : Fields) (now : Moment) (ks : Constants) : String :=
  joinLines ([header .block "JavaScript" options now, ""] ++
    ks.map fun k => "export const " ++ k.1 ++ " = " ++ k.2 ++ ";") ++ "\n"

/-- The constants of a file without types. -/
def scriptConstants (c : TokenList) : Constants :=
  c.tokens.map fun t => (t.name, t.value.javaScript)

lemma constantsText_eq_scriptText (c : TokenList) (options : Fields) (now : Moment) :
    constantsText c options now = scriptText options now (scriptConstants c) := by
  rw [constantsText, scriptText, scriptConstants, List.map_map]
  rfl

/-- There is a file without types unless a number in it has too many digits. -/
lemma javaScript_eq_scriptText (c : TokenList) (options : Fields) (now : Moment) :
    javaScript c options now = if c.tokens.any (·.value.holdsLongNumber) then .error .longNumber
      else .ok (scriptText options now (scriptConstants c)) := by
  rw [javaScript_eq, constantsText_eq_scriptText]

/-- What is written with a nested object is the text of constants and a tree. -/
lemma exists_tree_of_typeScript {c : TokenList} {options : Fields} {now : Moment} {text : String}
    (h : typeScript c options now = .ok text) :
    ∃ tree, NameTree.ofTokens c.tokens = .ok tree ∧
      text = moduleText options now (constants c) tree := by
  cases htree : NameTree.ofTokens c.tokens with
  | error e =>
      rw [typeScript, htree] at h
      cases h
  | ok tree =>
      rw [typeScript_eq_moduleText htree] at h
      exact ⟨tree, rfl, (Except.ok.inj h).symm⟩

/-- **Which of the names that files declare are identifiers.** In documents without messages for
their keys, names in camel case are those that resolved tokens have. Files without types, of which
there is none exactly if a whole number has too many digits, and files with a nested object if there
is one declare the names of all defined paths. The name of a path is an identifier exactly if its
first key begins with a letter, or is metadata whose first letter or digit is a letter. -/
theorem declared_identifiers_iff {docs : List Document} {c : TokenList} {options : Fields}
    (hclean : ∀ doc ∈ docs, ∃ file, keyMessages file doc.fields = [])
    (h : resolve docs = .ok c) (hbare : (options.getD "prefix").isTruthy = false) :
    c.transform ["name/camel"] options = .ok c ∧
      (∀ options' now, c.content "javascript/es6" options' now
        = if c.tokens.any (·.value.holdsLongNumber) then .error .longNumber
          else .ok (scriptText options' now (scriptConstants c))) ∧
      (scriptConstants c).map Prod.fst = (definedPaths docs).map camelName ∧
      (∀ options' now text, c.content "typescript/nested" options' now = .ok text →
        ∃ tree, NameTree.ofTokens c.tokens = .ok tree ∧
          text = moduleText options' now (constants c) tree) ∧
      (constants c).map Prod.fst = (definedPaths docs).map camelName ∧
      ∀ path ∈ definedPaths docs,
        IsIdentifier (camelName path) ↔ ∃ key rest, path = key :: rest ∧
          ((∃ c cs, key.toList = c :: cs ∧ isLower c = true) ∨
            isMetadataKey key = true ∧
              ∃ c, key.toList.find? isWordChar = some c ∧ isDigit c = false) := by
  have hnames : c.tokens.map Token.name = (definedPaths docs).map camelName := by
    rw [← paths_of_resolve h, List.map_map]
    exact List.map_congr_left fun t ht => name_of_mem_resolve h ht
  refine ⟨resolve_transform_camel h hbare,
    fun options' now => javaScript_eq_scriptText c options' now, ?_,
    fun options' now text => exists_tree_of_typeScript, ?_,
    fun path hpath => isIdentifier_iff_of_clean hclean hpath⟩
  · rw [← hnames, scriptConstants, List.map_map]
    rfl
  · rw [← hnames, constants, List.map_map]
    rfl

/-- The names of the gaps are identifiers, though one of the keys inside begins with a number. -/
theorem declared_identifiers_nested :
    ∃ c, keyMessages "nested" nestedGaps.fields = [] ∧ resolve [nestedGaps] = .ok c ∧
      c.transform ["name/camel"] [] = .ok c ∧
      (∀ now, c.content "javascript/es6" [] now = .ok (scriptText [] now
        [("gapSmall", "4"), ("gap2xl", "\"5em\""), ("gapsWide", "\"5em\"")])) ∧
      ∀ name ∈ ["gapSmall", "gap2xl", "gapsWide"], IsIdentifier name := by
  have hclean : keyMessages "nested" nestedGaps.fields = [] := rfl
  obtain ⟨c, hc, hconstants, hshort⟩ : ∃ c, resolve [nestedGaps] = .ok c ∧
      scriptConstants c = [("gapSmall", "4"), ("gap2xl", "\"5em\""), ("gapsWide", "\"5em\"")] ∧
      c.tokens.any (·.value.holdsLongNumber) = false :=
    ⟨_, rfl, rfl, by decide⟩
  have hbare : (Fields.getD [] "prefix").isTruthy = false := rfl
  obtain ⟨hcamel, hscript, -, -, -, hidentifier⟩ :=
    declared_identifiers_iff (List.forall_mem_singleton.mpr ⟨"nested", hclean⟩) hc hbare
  simp only [hconstants, hshort, Bool.false_eq_true, if_false] at hscript
  refine ⟨c, hclean, hc, hcamel, hscript [], ?_⟩
  have hpaths : definedPaths [nestedGaps] = [["gap", "small"], ["gap", "2xl"], ["gaps", "wide"]] :=
    rfl
  rw [hpaths] at hidentifier
  have hfront : ∀ path ∈ [["gap", "small"], ["gap", "2xl"], ["gaps", "wide"]],
      IsIdentifier (camelName path) := by
    intro path hpath
    refine (hidentifier path hpath).mpr ?_
    rcases List.mem_cons.mp hpath with rfl | hpath
    · exact ⟨"gap", ["small"], rfl, .inl ⟨'g', ['a', 'p'], rfl, by decide⟩⟩
    · rcases List.mem_cons.mp hpath with rfl | hpath
      · exact ⟨"gap", ["2xl"], rfl, .inl ⟨'g', ['a', 'p'], rfl, by decide⟩⟩
      · obtain rfl := List.mem_singleton.mp hpath
        exact ⟨"gaps", ["wide"], rfl, .inl ⟨'g', ['a', 'p', 's'], rfl, by decide⟩⟩
  exact List.forall_mem_map.mpr hfront

/-- A scale whose steps stand at the top. -/
def scale : Document := ⟨"scale", [("500", .obj [("value", .int 1)])]⟩

/-- There is no message for the key, and the number is declared as a name. -/
theorem leading_number_no_identifier :
    ∃ c, keyMessages "scale" scale.fields = [] ∧ resolve [scale] = .ok c ∧
      c.transform ["name/camel"] [] = .ok c ∧
      (∀ now, c.content "javascript/es6" [] now = .ok (scriptText [] now [("500", "1")])) ∧
      (∀ now, ∃ tree,
        c.content "typescript/nested" [] now = .ok (moduleText [] now [("500", "1")] tree)) ∧
      ¬ IsIdentifier "500" := by
  obtain ⟨c, tree, hc, hcamel, hscript, hshort, hconstants, htree⟩ : ∃ c tree,
      resolve [scale] = .ok c ∧ c.transform ["name/camel"] [] = .ok c ∧
      scriptConstants c = [("500", "1")] ∧ c.tokens.any (·.value.holdsLongNumber) = false ∧
      constants c = [("500", "1")] ∧ NameTree.ofTokens c.tokens = .ok tree :=
    ⟨_, _, rfl, rfl, rfl, by decide, rfl, rfl⟩
  refine ⟨c, rfl, hc, hcamel, fun now => ?_, fun now => ⟨tree, ?_⟩, ?_⟩
  · change javaScript c [] now = _
    rw [javaScript_eq_scriptText, hshort, hscript, if_neg Bool.false_ne_true]
  · rw [← hconstants, ← typeScript_eq_moduleText htree]
    rfl
  · rintro ⟨c, cs, hname, hdigit⟩
    obtain ⟨rfl, -⟩ := List.cons.inj (hname : ['5', '0', '0'] = c :: cs)
    exact absurd hdigit (by decide)

end Output

end StyleTokens
