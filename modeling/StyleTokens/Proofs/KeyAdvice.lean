import StyleTokens.Proofs.KeyLanguage
import StyleTokens.Proofs.LowerCase

/-!
Advice for keys.

* `Text.isUpper_iff_of_lowersToAscii`: upper case letters whose lower case is in ASCII;
* `snakeChar`, `hyphenChar`: what the two kinds of advice make of a character; `toList_snakeAdvice`,
  `exists_mem_snakeAdvice`, `toList_hyphenAdvice`: what they make of a key;
* `IsRepairable`: keys that advice makes words of the language; `isKeyWord_flatMap_snakeChar_iff`,
  `isKeyWord_map_hyphenChar_iff`: that it does so, for each kind of advice;
* `Suggests`, `Suggests.advice`: messages with a suggestion, and what is suggested;
* `suggestion_accepted_iff`: the keys whose suggestion has no message of its own.
  `broken_suggestions_reported` have one.
-/

namespace StyleTokens

open Text (LowersToAscii asciiLower kelvin)
open Words (isDigit isLower isUpper isWordChar)

/-! ### Characters -/

section Characters

variable {c : Char}

/-- Beside the letters of ASCII, the kelvin is an upper case letter whose lower case is in ASCII. -/
lemma Text.isUpper_iff_of_lowersToAscii (h : LowersToAscii c) :
    Text.isUpper c = true ↔ Words.isUpper c = true ∨ c = kelvin := by
  rcases h with h | rfl
  · rw [Text.isUpper, if_pos h, Words.isUpper_iff]
    change decide (65 ≤ c.val ∧ c.val ≤ 90) = true ↔ _
    simp [Text.ne_kelvin h, UInt32.le_iff_toNat_le, ← Char.toNat_val]
  · exact iff_of_true (by decide) (.inr rfl)

/-- Only upper case letters and the kelvin change. -/
lemma Text.asciiLower_of_not_isUpper (h : Words.isUpper c = false) (hkelvin : c ≠ kelvin) :
    asciiLower c = c := by
  rw [asciiLower, if_neg hkelvin, Words.toLower_eq_self h]

/-- What is a lower case letter beside the letters that are changed. -/
lemma Text.isLower_asciiLower_iff (h : Words.isUpper c = false) :
    isLower (asciiLower c) = true ↔ isLower c = true ∨ c = kelvin := by
  by_cases hkelvin : c = kelvin
  · rw [hkelvin]
    exact iff_of_true (by decide) (.inr rfl)
  · rw [asciiLower_of_not_isUpper h hkelvin, or_iff_left hkelvin]

lemma Text.isDigit_asciiLower_iff (h : Words.isUpper c = false) :
    isDigit (asciiLower c) = true ↔ isDigit c = true := by
  by_cases hkelvin : c = kelvin
  · rw [hkelvin]
    exact iff_of_false (by decide) (by decide)
  · rw [asciiLower_of_not_isUpper h hkelvin]

/-- What an advice in snake case makes of a character. -/
def snakeChar (c : Char) : List Char :=
  if isUpper c then ['_', c.toLower] else [asciiLower c]

/-- What an advice against hyphens makes of a character. -/
def hyphenChar (c : Char) : Char := if c = '-' then '_' else c

lemma snakeChar_of_isUpper (h : isUpper c = true) : snakeChar c = ['_', c.toLower] := if_pos h

lemma snakeChar_of_not_isUpper (h : isUpper c = false) : snakeChar c = [asciiLower c] :=
  if_neg (by simp [h])

/-- The characters that stand in words after they are changed to snake case. -/
lemma forall_mem_snakeChar_iff :
    (∀ d ∈ snakeChar c, isLower d = true ∨ isDigit d = true ∨ d = '_') ↔
      isWordChar c = true ∨ c = '_' ∨ c = kelvin := by
  cases hc : isUpper c with
  | true =>
      rw [snakeChar_of_isUpper hc]
      refine iff_of_true ?_ (.inl (by simp [isWordChar, hc]))
      simp [Words.isLower_toLower hc]
  | false =>
      rw [snakeChar_of_not_isUpper hc, List.forall_mem_singleton, Text.isLower_asciiLower_iff hc,
        Text.isDigit_asciiLower_iff hc, isWordChar, hc]
      by_cases hkelvin : c = kelvin
      · simp [hkelvin]
      · simp [Text.asciiLower_of_not_isUpper hc hkelvin, hkelvin, or_assoc]

/-- No line feed comes in. -/
lemma snakeChar_spec (h : c ≠ '\n') : snakeChar c ≠ [] ∧ '\n' ∉ snakeChar c := by
  cases hc : isUpper c with
  | true =>
      have hne : '\n' ≠ c.toLower := by
        intro hfeed
        have hlower := Words.isLower_toLower hc
        rw [← hfeed] at hlower
        exact absurd hlower (by decide)
      rw [snakeChar_of_isUpper hc]
      simp [hne]
  | false =>
      have hne : '\n' ≠ asciiLower c := by
        by_cases hkelvin : c = kelvin
        · rw [hkelvin]
          decide
        · rw [Text.asciiLower_of_not_isUpper hc hkelvin]
          exact h.symm
      rw [snakeChar_of_not_isUpper hc]
      simp [hne]

lemma hyphenChar_iff : (isLower (hyphenChar c) = true ∨ isDigit (hyphenChar c) = true ∨
    hyphenChar c = '_') ↔ isLower c = true ∨ isDigit c = true ∨ c = '_' ∨ c = '-' := by
  by_cases hc : c = '-'
  · simp [hyphenChar, hc]
  · simp [hyphenChar, hc]

/-- What may stand in keys without capitals. -/
lemma not_capital (h : isLower c = true ∨ isDigit c = true ∨ c = '_' ∨ c = '-') :
    ¬ (isUpper c = true ∨ c = kelvin) := by
  rintro (hupper | rfl)
  · rcases h with h | h | rfl | rfl
    · exact absurd hupper (by simp [Words.isUpper_eq_false (.inl h)])
    · exact absurd hupper (by simp [Words.isUpper_eq_false (.inr h)])
    · exact absurd hupper (by decide)
    · exact absurd hupper (by decide)
  · exact absurd h (by decide)

end Characters

/-! ### Advice -/

section Advice

variable {key : String}

/-- Advice in snake case for a key whose lower case is in ASCII. -/
lemma toList_snakeAdvice (h : ∀ c ∈ key.toList, LowersToAscii c) :
    (snakeAdvice key).toList = key.toList.flatMap snakeChar := by
  have hchar : ∀ c, (if isUpper c then ['_', c] else [c]).map asciiLower = snakeChar c := by
    intro c
    cases hc : isUpper c with
    | true =>
        have hkelvin : c ≠ kelvin := by
          rintro rfl
          exact absurd hc (by decide)
        have hmark : '_' ≠ kelvin := by decide
        simp [snakeChar_of_isUpper hc, asciiLower, hkelvin, hmark]
    | false => simp [snakeChar_of_not_isUpper hc]
  have hascii : ∀ d ∈ key.toList.flatMap fun c => if isUpper c then ['_', c] else [c],
      LowersToAscii d := by
    rw [List.forall_mem_flatMap]
    intro c hc
    split
    · exact List.forall_mem_cons.mpr ⟨.inl (by decide), List.forall_mem_singleton.mpr (h c hc)⟩
    · exact List.forall_mem_singleton.mpr (h c hc)
  rw [snakeAdvice, String.toList_ofList, Text.lower, Text.lowerAfter_eq_map hascii,
    List.map_flatMap]
  simp only [hchar]

/-- Advice in snake case for any other key goes beyond ASCII. -/
lemma exists_mem_snakeAdvice (h : ∃ c ∈ key.toList, ¬ LowersToAscii c) :
    ∃ e ∈ (snakeAdvice key).toList, 0x80 ≤ e.toNat := by
  obtain ⟨c, hc, hbeyond⟩ := h
  rw [snakeAdvice, String.toList_ofList]
  refine Text.exists_mem_lowerAfter ⟨c, List.mem_flatMap.mpr ⟨c, hc, ?_⟩, hbeyond⟩ []
  split <;> simp

lemma head?_snakeAdvice_ne (h : key.toList.head? ≠ some '$') :
    (snakeAdvice key).toList.head? ≠ some '$' := by
  rw [snakeAdvice, String.toList_ofList]
  refine Text.head?_lower_ne ?_
  cases hkey : key.toList with
  | nil => simp
  | cons c cs =>
      rw [hkey] at h
      rw [List.flatMap_cons]
      split
      · simp
      · simpa using h

lemma toList_hyphenAdvice : (hyphenAdvice key).toList = key.toList.map hyphenChar := by
  rw [hyphenAdvice, String.toList_ofList]
  rfl

lemma head?_hyphenAdvice_ne (h : key.toList.head? ≠ some '$') :
    (hyphenAdvice key).toList.head? ≠ some '$' := by
  rw [toList_hyphenAdvice, List.head?_map]
  cases hkey : key.toList with
  | nil => simp
  | cons c cs =>
      rw [hkey] at h
      by_cases hc : c = '-'
      · simp [hyphenChar, hc]
      · simpa [hyphenChar, hc] using h

end Advice

/-! ### Keys that are repaired -/

section Repairable

variable {w : List Char}

/-- The key becomes a word when its capitals or its hyphens are replaced: it begins with a lower case
letter and has only letters, digits and underscores, or hyphens if it has no capitals, or it is a step
with letters behind it. The kelvin counts as a letter. -/
inductive IsRepairable : List Char → Prop
  | capitals {c : Char} {cs : List Char} (hc : isLower c = true ∨ c = kelvin)
      (hcs : ∀ d ∈ cs, isWordChar d = true ∨ d = '_' ∨ d = kelvin) : IsRepairable (c :: cs)
  | hyphens {c : Char} {cs : List Char} (hc : isLower c = true)
      (hcs : ∀ d ∈ cs, isLower d = true ∨ isDigit d = true ∨ d = '_' ∨ d = '-') :
      IsRepairable (c :: cs)
  | size {ds ls : List Char} (hds_ne : ds ≠ []) (hds : ∀ d ∈ ds, isDigit d = true)
      (hls_ne : ls ≠ []) (hls : ∀ l ∈ ls, isLower l = true ∨ l = kelvin) : IsRepairable (ds ++ ls)

/-- Such keys are in ASCII, and so is their lower case. -/
lemma IsRepairable.lowersToAscii (h : IsRepairable w) : ∀ c ∈ w, LowersToAscii c := by
  have hword : ∀ {c}, isWordChar c = true ∨ c = '_' ∨ c = '-' ∨ c = kelvin → LowersToAscii c := by
    rintro c (hc | rfl | rfl | rfl)
    · simp only [isWordChar, Bool.or_eq_true, Words.isLower_iff, Words.isUpper_iff,
        Words.isDigit_iff] at hc
      exact .inl (by omega)
    · exact .inl (by decide)
    · exact .inl (by decide)
    · exact .inr rfl
  cases h with
  | capitals hc hcs =>
      refine List.forall_mem_cons.mpr ⟨hword ?_, fun d hd => hword ?_⟩
      · exact hc.imp (fun hc => by simp [isWordChar, hc]) fun hc => .inr (.inr hc)
      · rcases hcs d hd with hd | hd | hd <;> simp [hd]
  | hyphens hc hcs =>
      refine List.forall_mem_cons.mpr ⟨hword (.inl (by simp [isWordChar, hc])), fun d hd => hword ?_⟩
      rcases hcs d hd with hd | hd | hd | hd <;> simp [isWordChar, hd]
  | size _ hds _ hls =>
      refine List.forall_mem_append.mpr ⟨fun d hd => hword ?_, fun l hl => hword ?_⟩
      · simp [isWordChar, hds d hd]
      · rcases hls l hl with hl | hl <;> simp [isWordChar, hl]

lemma flatMap_snakeChar_of_not_isUpper (h : ∀ c ∈ w, isUpper c = false) :
    w.flatMap snakeChar = w.map asciiLower := by
  induction w with
  | nil => rfl
  | cons c w ih =>
      obtain ⟨hc, hw⟩ := List.forall_mem_cons.mp h
      rw [List.flatMap_cons, snakeChar_of_not_isUpper hc, ih hw, List.map_cons,
        List.singleton_append]

/-- Upper case letters leave underscores. -/
lemma not_isUpper_of_flatMap_snakeChar (h : '_' ∉ w.flatMap snakeChar) :
    ∀ c ∈ w, isUpper c = false := by
  intro c hc
  by_contra hupper
  refine h (List.mem_flatMap.mpr ⟨c, hc, ?_⟩)
  rw [snakeChar_of_isUpper (by simpa using hupper)]
  simp

lemma IsRepairable.of_isKeyWord_flatMap_snakeChar (h : IsKeyWord (w.flatMap snakeChar))
    (hupper : ∃ c ∈ w, isUpper c = true ∨ c = kelvin) : IsRepairable w := by
  generalize hv : w.flatMap snakeChar = v at h
  cases h with
  | @word d ds hd hds =>
      cases w with
      | nil => cases hv
      | cons c w =>
          rw [List.flatMap_cons] at hv
          cases hc : isUpper c with
          | true =>
              rw [snakeChar_of_isUpper hc] at hv
              obtain ⟨rfl, -⟩ := List.cons.inj hv
              exact absurd hd (by decide)
          | false =>
              rw [snakeChar_of_not_isUpper hc] at hv
              obtain ⟨rfl, rfl⟩ := List.cons.inj hv
              refine .capitals ((Text.isLower_asciiLower_iff hc).mp hd) fun e he => ?_
              exact forall_mem_snakeChar_iff.mp (List.forall_mem_flatMap.mp hds e he)
  | step hne hds =>
      -- a capital does not become a digit
      obtain ⟨c, hc, hcapital⟩ := hupper
      rw [← hv, List.forall_mem_flatMap] at hds
      have hdigits := hds c hc
      cases hupper : isUpper c with
      | true =>
          rw [snakeChar_of_isUpper hupper, List.forall_mem_cons] at hdigits
          exact absurd hdigits.1 (by decide)
      | false =>
          obtain rfl := hcapital.resolve_left (by simp [hupper])
          exact absurd (hdigits 'k' (by decide)) (by decide)
  | @size ds ls hds_ne hds hls_ne hls =>
      have hmark : '_' ∉ w.flatMap snakeChar := by
        rw [hv, List.mem_append, not_or]
        exact ⟨fun hmem => absurd (hds _ hmem) (by decide),
          fun hmem => absurd (hls _ hmem) (by decide)⟩
      have hlow := not_isUpper_of_flatMap_snakeChar hmark
      rw [flatMap_snakeChar_of_not_isUpper hlow] at hv
      obtain ⟨u, v, rfl, rfl, rfl⟩ := List.map_eq_append_iff.mp hv
      obtain ⟨hlow_u, hlow_v⟩ := List.forall_mem_append.mp hlow
      rw [List.forall_mem_map] at hds hls
      exact .size (by simpa using hds_ne)
        (fun d hd => (Text.isDigit_asciiLower_iff (hlow_u d hd)).mp (hds d hd))
        (by simpa using hls_ne)
        (fun l hl => (Text.isLower_asciiLower_iff (hlow_v l hl)).mp (hls l hl))

lemma IsRepairable.isKeyWord_flatMap_snakeChar (h : IsRepairable w)
    (hupper : ∃ c ∈ w, isUpper c = true ∨ c = kelvin) : IsKeyWord (w.flatMap snakeChar) := by
  have hletter : ∀ {l}, isLower l = true ∨ l = kelvin → isUpper l = false := by
    rintro l (hl | rfl)
    · exact Words.isUpper_eq_false (.inl hl)
    · decide
  cases h with
  | @capitals c cs hc hcs =>
      rw [List.flatMap_cons, snakeChar_of_not_isUpper (hletter hc)]
      exact .word ((Text.isLower_asciiLower_iff (hletter hc)).mpr hc)
        (List.forall_mem_flatMap.mpr fun d hd => forall_mem_snakeChar_iff.mpr (hcs d hd))
  | @hyphens c cs hc hcs =>
      -- there are no capitals
      obtain ⟨d, hd, hcapital⟩ := hupper
      have hclass : isLower d = true ∨ isDigit d = true ∨ d = '_' ∨ d = '-' := by
        rcases List.mem_cons.mp hd with rfl | hd
        · exact .inl hc
        · exact hcs d hd
      exact absurd hcapital (not_capital hclass)
  | @size ds ls hds_ne hds hls_ne hls =>
      have hlow : ∀ c ∈ ds ++ ls, isUpper c = false := List.forall_mem_append.mpr
        ⟨fun d hd => Words.isUpper_eq_false (.inr (hds d hd)), fun l hl => hletter (hls l hl)⟩
      obtain ⟨hlow_ds, hlow_ls⟩ := List.forall_mem_append.mp hlow
      rw [flatMap_snakeChar_of_not_isUpper hlow, List.map_append]
      refine .size (by simpa using hds_ne) ?_ (by simpa using hls_ne) ?_
      · exact List.forall_mem_map.mpr fun d hd =>
          (Text.isDigit_asciiLower_iff (hlow_ds d hd)).mpr (hds d hd)
      · exact List.forall_mem_map.mpr fun l hl =>
          (Text.isLower_asciiLower_iff (hlow_ls l hl)).mpr (hls l hl)

/-- **Snake case makes words** of the keys with capitals that can be repaired, and of no others. -/
theorem isKeyWord_flatMap_snakeChar_iff (hupper : ∃ c ∈ w, isUpper c = true ∨ c = kelvin) :
    IsKeyWord (w.flatMap snakeChar) ↔ IsRepairable w :=
  ⟨fun h => .of_isKeyWord_flatMap_snakeChar h hupper,
    fun h => h.isKeyWord_flatMap_snakeChar hupper⟩

/-- **Underscores for hyphens make words** of the keys with hyphens that can be repaired, and of no
others. -/
theorem isKeyWord_map_hyphenChar_iff (hhyphen : '-' ∈ w) :
    IsKeyWord (w.map hyphenChar) ↔ IsRepairable w := by
  have hmark : '_' ∈ w.map hyphenChar := List.mem_map.mpr ⟨'-', hhyphen, rfl⟩
  constructor
  · intro h
    generalize hv : w.map hyphenChar = v at h hmark
    cases h with
    | word hd hds =>
        obtain ⟨c, cs, rfl, rfl, rfl⟩ := List.map_eq_cons_iff.mp hv
        have hc : hyphenChar c = c := by
          by_cases hc : c = '-'
          · rw [hc] at hd
            exact absurd hd (by decide)
          · exact if_neg hc
        exact .hyphens (hc ▸ hd) fun d hd => hyphenChar_iff.mp (List.forall_mem_map.mp hds d hd)
    | step _ hds => exact absurd (hds _ hmark) (by decide)
    | size _ hds _ hls =>
        rcases List.mem_append.mp hmark with hmark | hmark
        · exact absurd (hds _ hmark) (by decide)
        · exact absurd (hls _ hmark) (by decide)
  · intro h
    cases h with
    | capitals hc hcs =>
        rcases List.mem_cons.mp hhyphen with rfl | hhyphen
        · exact absurd hc (by decide)
        · exact absurd (hcs _ hhyphen) (by decide)
    | @hyphens c cs hc hcs =>
        have hne : c ≠ '-' := by
          rintro rfl
          exact absurd hc (by decide)
        rw [List.map_cons, hyphenChar, if_neg hne]
        exact .word hc (List.forall_mem_map.mpr fun d hd => hyphenChar_iff.mpr (hcs d hd))
    | size _ hds _ hls =>
        rcases List.mem_append.mp hhyphen with hhyphen | hhyphen
        · exact absurd (hds _ hhyphen) (by decide)
        · exact absurd (hls _ hhyphen) (by decide)

end Repairable

/-! ### Suggestions -/

section Suggestions

variable {key parent file s : String}

/-- The message for the key suggests a key to take instead. -/
def Suggests (key parent file s : String) : Prop :=
  ∃ fault ∈ [" uses camelCase. Use snake_case instead (e.g., \"",
      " uses hyphens. Use underscores instead (e.g., \""],
    keyMessage? key parent file
      = some (file ++ ": Key \"" ++ key ++ "\" at \"" ++ parent ++ "\"" ++ (fault ++ s ++ "\")"))

/-- The two kinds of advice are told apart. -/
lemma camelFault_ne_hyphenFault (a b : String) :
    " uses camelCase. Use snake_case instead (e.g., \"" ++ a
      ≠ " uses hyphens. Use underscores instead (e.g., \"" ++ b := by
  intro h
  have hchar := congrArg (fun t => t.toList[6]?) h
  simp [String.toList_append] at hchar

/-- A suggestion is made for keys with capitals or hyphens, and is the advice for them. -/
lemma Suggests.advice (h : Suggests key parent file s) : key.toList.head? ≠ some '$' ∧
    ((∃ c ∈ key.toList, Text.isUpper c = true) ∧ s = snakeAdvice key ∨
      '-' ∈ key.toList ∧ s = hyphenAdvice key) := by
  obtain ⟨fault, hfault, h⟩ := h
  rw [keyMessage?] at h
  split at h
  · cases h
  · next hkey =>
      rw [Bool.or_eq_true, not_or, isMetadataKey, beq_iff_eq] at hkey
      refine ⟨hkey.1, ?_⟩
      rw [Option.some.injEq, String.append_right_inj] at h
      split at h
      · next hupper =>
          rw [String.append_left_inj] at h
          refine .inl ⟨by simpa using hupper, ?_⟩
          rcases List.mem_pair.mp hfault with rfl | rfl
          · exact (String.append_right_inj _ |>.mp h).symm
          · exact absurd h (camelFault_ne_hyphenFault _ _)
      · split at h
        · next hhyphen =>
            rw [String.append_left_inj] at h
            refine .inr ⟨by simpa using hhyphen, ?_⟩
            rcases List.mem_pair.mp hfault with rfl | rfl
            · exact absurd h.symm (camelFault_ne_hyphenFault _ _)
            · exact (String.append_right_inj _ |>.mp h).symm
        · have hchar := congrArg (fun t => t.toList[1]?) h
          rcases List.mem_pair.mp hfault with rfl | rfl
          · simp [String.toList_append] at hchar
          · simp [String.toList_append] at hchar

/-- Keys that are accepted are in ASCII, without capitals and hyphens. -/
lemma forall_mem_of_isAccepted {cs : List Char} (h : UpToLineFeed IsKeyWord cs) :
    ∀ c ∈ cs, c.toNat < 0x80 ∧ Text.isUpper c = false ∧ c ≠ '-' := by
  refine h.forall_mem (fun w hw c hc => ?_) ⟨by decide, by decide, by decide⟩
  have hclass := hw.forall_mem c hc
  have hascii : c.toNat < 0x80 := by
    rcases hclass with h | h | rfl
    · rw [Words.isLower_iff] at h
      omega
    · rw [Words.isDigit_iff] at h
      omega
    · decide
  refine ⟨hascii, ?_, ?_⟩
  · rw [Bool.eq_false_iff, ne_eq, Text.isUpper_iff_of_lowersToAscii (.inl hascii)]
    exact not_capital (by tauto)
  · rintro rfl
    exact absurd hclass (by decide)

/-- **Which keys have a suggestion**: those with capitals or hyphens, but for metadata. -/
theorem exists_suggests_iff : (∃ s, Suggests key parent file s) ↔
    key.toList.head? ≠ some '$' ∧ ∃ c ∈ key.toList, Text.isUpper c = true ∨ c = '-' := by
  constructor
  · rintro ⟨s, h⟩
    obtain ⟨hkey, ⟨⟨c, hc, hupper⟩, -⟩ | ⟨hhyphen, -⟩⟩ := h.advice
    · exact ⟨hkey, c, hc, .inl hupper⟩
    · exact ⟨hkey, '-', hhyphen, .inr rfl⟩
  · rintro ⟨hkey, c, hc, hfault⟩
    have hodd : ¬ (isMetadataKey key || isAccepted key.toList) = true := by
      rw [Bool.or_eq_true, not_or, isMetadataKey, beq_iff_eq]
      refine ⟨hkey, fun haccepted => ?_⟩
      obtain ⟨-, hlow, hne⟩ := forall_mem_of_isAccepted (isAccepted_iff.mp haccepted) c hc
      simp [hlow, hne] at hfault
    simp only [Suggests, keyMessage?, if_neg hodd]
    by_cases hupper : key.toList.any Text.isUpper = true
    · exact ⟨snakeAdvice key, _, List.mem_cons_self .., by rw [if_pos hupper]⟩
    · have hhyphen : key.toList.contains '-' = true := by
        rcases hfault with hc' | rfl
        · exact absurd (List.any_eq_true.mpr ⟨c, hc, hc'⟩) hupper
        · simpa using hc
      exact ⟨hyphenAdvice key, _, List.mem_cons_of_mem _ (List.mem_singleton.mpr rfl),
        by rw [if_neg hupper, if_pos hhyphen]⟩

/-- Advice in snake case is accepted for the keys with capitals that can be repaired. -/
lemma snakeAdvice_accepted_iff (hupper : ∃ c ∈ key.toList, Text.isUpper c = true) :
    UpToLineFeed IsKeyWord (snakeAdvice key).toList ↔ UpToLineFeed IsRepairable key.toList := by
  by_cases hascii : ∀ c ∈ key.toList, LowersToAscii c
  · rw [toList_snakeAdvice hascii, upToLineFeed_flatMap (by decide) fun c hc => snakeChar_spec hc]
    refine upToLineFeed_congr fun w hw => isKeyWord_flatMap_snakeChar_iff ?_
    obtain ⟨c, hc, hcapital⟩ := hupper
    refine ⟨c, ?_, (Text.isUpper_iff_of_lowersToAscii (hascii c hc)).mp hcapital⟩
    rcases hw with hw | hw
    · exact hw ▸ hc
    · rw [hw, List.mem_append, List.mem_singleton] at hc
      refine hc.resolve_right ?_
      rintro rfl
      exact absurd hcapital (by decide)
  · refine iff_of_false (fun haccepted => ?_) fun hrepairable => ?_
    · obtain ⟨e, he, hbeyond⟩ := exists_mem_snakeAdvice (by simpa using hascii)
      obtain ⟨hlt, -⟩ := forall_mem_of_isAccepted haccepted e he
      omega
    · exact hascii (hrepairable.forall_mem (fun w hw => hw.lowersToAscii) (.inl (by decide)))

/-- Advice against hyphens is accepted for the keys with hyphens that can be repaired. -/
lemma hyphenAdvice_accepted_iff (hhyphen : '-' ∈ key.toList) :
    UpToLineFeed IsKeyWord (hyphenAdvice key).toList ↔ UpToLineFeed IsRepairable key.toList := by
  have hother : ∀ c, c ≠ '\n' → [hyphenChar c] ≠ [] ∧ '\n' ∉ [hyphenChar c] := by
    intro c hc
    by_cases hmark : c = '-'
    · simp [hyphenChar, hmark]
    · simpa [hyphenChar, hmark] using hc.symm
  rw [toList_hyphenAdvice, List.map_eq_flatMap, upToLineFeed_flatMap (by decide) hother]
  refine upToLineFeed_congr fun w hw => ?_
  rw [← List.map_eq_flatMap]
  refine isKeyWord_map_hyphenChar_iff ?_
  rcases hw with hw | hw
  · exact hw ▸ hhyphen
  · simpa [hw] using hhyphen

/-- **Which suggestions are accepted.** A suggestion is made for the keys with capitals or hyphens that
are no metadata. It has no message of its own exactly if the key is one that can be repaired, with a
line feed at its end or without. -/
theorem suggestion_accepted_iff (key parent file : String) :
    ((∃ s, Suggests key parent file s) ↔
      key.toList.head? ≠ some '$' ∧ ∃ c ∈ key.toList, Text.isUpper c = true ∨ c = '-') ∧
    ∀ s, Suggests key parent file s →
      ((∀ parent' file', keyMessage? s parent' file' = none) ↔
        UpToLineFeed IsRepairable key.toList) := by
  refine ⟨exists_suggests_iff, fun s h => ?_⟩
  simp only [keyMessage?_eq_none_iff, isAccepted_iff, forall_const]
  obtain ⟨hkey, ⟨hupper, rfl⟩ | ⟨hhyphen, rfl⟩⟩ := h.advice
  · rw [or_iff_right (head?_snakeAdvice_ne hkey), snakeAdvice_accepted_iff hupper]
  · rw [or_iff_right (head?_hyphenAdvice_ne hkey), hyphenAdvice_accepted_iff hhyphen]

/-- A capital behind a digit is repaired. -/
theorem suggestion_accepted_brandInk :
    Suggests "brand2Ink" "root" "inks.json" "brand2_ink" ∧
      UpToLineFeed IsRepairable "brand2Ink".toList ∧
      ∀ parent file, keyMessage? "brand2_ink" parent file = none := by
  have hsuggests : Suggests "brand2Ink" "root" "inks.json" "brand2_ink" :=
    ⟨_, List.mem_cons_self .., by decide⟩
  have hletters : "rand2Ink".toList.all isWordChar = true := by decide
  have hrepairable : UpToLineFeed IsRepairable "brand2Ink".toList :=
    .inl (.capitals (c := 'b') (.inl (by decide))
      fun d hd => .inl (List.all_eq_true.mp hletters d hd))
  exact ⟨hsuggests, hrepairable,
    ((suggestion_accepted_iff "brand2Ink" "root" "inks.json").2 _ hsuggests).mpr hrepairable⟩

/-- A capital or a hyphen in front leaves an underscore there, a hyphen beside a capital stays, and
steps with a capital behind them are no words with an underscore: each suggestion has a message. -/
theorem broken_suggestions_reported :
    (Suggests "Ink" "root" "inks.json" "_ink" ∧
      keyMessage? "_ink" "root" "inks.json" = some
        "inks.json: Key \"_ink\" at \"root\" has invalid format. Use lowercase with underscores.") ∧
    (Suggests "-ink" "root" "inks.json" "_ink") ∧
    (Suggests "brand-Ink" "root" "inks.json" "brand-_ink" ∧
      Suggests "brand-_ink" "root" "inks.json" "brand__ink") ∧
    (Suggests "2XL" "root" "sizes.json" "2_x_l" ∧
      keyMessage? "2_x_l" "root" "sizes.json" = some
        "sizes.json: Key \"2_x_l\" at \"root\" has invalid format. Use lowercase with underscores.") :=
  ⟨⟨⟨_, List.mem_cons_self .., by decide⟩, by decide⟩,
    ⟨_, List.mem_cons_of_mem _ (List.mem_singleton.mpr rfl), by decide⟩,
    ⟨⟨_, List.mem_cons_self .., by decide⟩,
      ⟨_, List.mem_cons_of_mem _ (List.mem_singleton.mpr rfl), by decide⟩⟩,
    ⟨_, List.mem_cons_self .., by decide⟩, by decide⟩

end Suggestions

end StyleTokens
