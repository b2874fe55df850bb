import StyleTokens.Proofs.Identifiers

/-!
The language of keys.

* `IsKeyWord`: words, steps of a scale and sizes; `isConventional_iff`: the texts that follow the
  convention;
* `UpToLineFeed`: what holds of a text, or of the text without the line feed at its end;
  `upToLineFeed_flatMap` is for texts whose characters are replaced;
* `isAccepted_iff`: the texts that are accepted;
* `key_unreported_iff`: the keys without a message. `final_line_feed_unreported` is no word.
-/

namespace StyleTokens

open Words (isDigit isLower)

/-! ### Words, steps and sizes -/

/-- The text is a word in lower case, a step of a scale, or a step with letters behind it. -/
inductive IsKeyWord : List Char → Prop
  | word {c : Char} {cs : List Char} (hc : isLower c = true)
      (hcs : ∀ d ∈ cs, isLower d = true ∨ isDigit d = true ∨ d = '_') : IsKeyWord (c :: cs)
  | step {ds : List Char} (hne : ds ≠ []) (hds : ∀ d ∈ ds, isDigit d = true) : IsKeyWord ds
  | size {ds ls : List Char} (hds_ne : ds ≠ []) (hds : ∀ d ∈ ds, isDigit d = true)
      (hls_ne : ls ≠ []) (hls : ∀ l ∈ ls, isLower l = true) : IsKeyWord (ds ++ ls)

/-- What stands in words, steps and sizes. -/
lemma IsKeyWord.forall_mem {cs : List Char} (h : IsKeyWord cs) :
    ∀ c ∈ cs, isLower c = true ∨ isDigit c = true ∨ c = '_' := by
  cases h with
  | word hc hcs => exact List.forall_mem_cons.mpr ⟨.inl hc, hcs⟩
  | step _ hds => exact fun d hd => .inr (.inl (hds d hd))
  | size _ hds _ hls =>
      exact List.forall_mem_append.mpr
        ⟨fun d hd => .inr (.inl (hds d hd)), fun l hl => .inl (hls l hl)⟩

/-- No digit is a lower case letter. -/
lemma Words.isLower_eq_false_of_isDigit {c : Char} (h : isDigit c = true) : isLower c = false := by
  rw [isDigit_iff] at h
  rw [Bool.eq_false_iff, ne_eq, isLower_iff]
  omega

/-- No lower case letter is a digit. -/
lemma Words.isDigit_eq_false_of_isLower {c : Char} (h : isLower c = true) : isDigit c = false :=
  (isDigit_eq_false_iff (.inl h)).mpr h

/-- A text that begins with a digit follows the convention if only letters come behind its digits. -/
lemma isConventional_of_isDigit {ds : List Char} (hne : ds ≠ []) (hds : ∀ d ∈ ds, isDigit d = true)
    (ls : List Char) (hls : ∀ l ∈ ls, isLower l = true) : isConventional (ds ++ ls) = true := by
  obtain ⟨d, ds, rfl⟩ := List.exists_cons_of_ne_nil hne
  obtain ⟨hd, hds⟩ := List.forall_mem_cons.mp hds
  have hdrop : (ds ++ ls).dropWhile isDigit = ls := by
    rw [List.dropWhile_append_of_pos hds]
    cases ls with
    | nil => rfl
    | cons l ls =>
        exact List.dropWhile_cons_of_neg
          (by simp [Words.isDigit_eq_false_of_isLower (hls l (by simp))])
  rw [List.cons_append, isConventional, Words.isLower_eq_false_of_isDigit hd, hdrop, hd]
  simpa using hls

/-- **The convention is a language**: it holds of words, steps and sizes, and of nothing else. -/
theorem isConventional_iff {cs : List Char} : isConventional cs = true ↔ IsKeyWord cs := by
  constructor
  · intro h
    cases cs with
    | nil => cases h
    | cons c rest =>
        rw [isConventional] at h
        split at h
        · next hc => exact .word hc (by simpa [or_assoc] using h)
        · obtain ⟨hc, hletters⟩ := Bool.and_eq_true_iff.mp h
          have hdigits : ∀ d ∈ c :: rest.takeWhile isDigit, isDigit d = true :=
            List.forall_mem_cons.mpr ⟨hc, fun d hd => List.mem_takeWhile_imp hd⟩
          rw [← List.takeWhile_append_dropWhile (p := isDigit) (l := rest), ← List.cons_append]
          by_cases hnil : rest.dropWhile isDigit = []
          · rw [hnil, List.append_nil]
            exact .step (by simp) hdigits
          · exact .size (by simp) hdigits hnil (List.all_eq_true.mp hletters)
  · intro h
    cases h with
    | word hc hcs =>
        rw [isConventional, if_pos hc]
        simpa [or_assoc] using hcs
    | step hne hds => simpa using isConventional_of_isDigit hne hds [] (by simp)
    | size hne hds _ hls => exact isConventional_of_isDigit hne hds _ hls

instance (cs : List Char) : Decidable (IsKeyWord cs) := decidable_of_iff _ isConventional_iff

/-! ### Line feeds at the end -/

/-- The text has the property, or it is such a text with a line feed at its end. -/
def UpToLineFeed (P : List Char → Prop) (cs : List Char) : Prop :=
  P cs ∨ ∃ w, cs = w ++ ['\n'] ∧ P w

section LineFeed

variable {P Q : List Char → Prop} {cs : List Char}

/-- What is looked at is the text, or the text without its line feed. -/
lemma upToLineFeed_congr (h : ∀ w, cs = w ∨ cs = w ++ ['\n'] → (P w ↔ Q w)) :
    UpToLineFeed P cs ↔ UpToLineFeed Q cs :=
  or_congr (h cs (.inl rfl)) (exists_congr fun w => and_congr_right fun hw => h w (.inr hw))

/-- Characters of all texts with a property, and line feeds. -/
lemma UpToLineFeed.forall_mem {p : Char → Prop} (h : UpToLineFeed P cs)
    (hP : ∀ w, P w → ∀ c ∈ w, p c) (hfeed : p '\n') : ∀ c ∈ cs, p c := by
  rcases h with h | ⟨w, rfl, hw⟩
  · exact hP cs h
  · exact List.forall_mem_append.mpr ⟨hP w hw, List.forall_mem_singleton.mpr hfeed⟩

/-- Where characters are replaced, and line feeds neither come nor go, a line feed at the end is the
one that was there. -/
lemma upToLineFeed_flatMap {f : Char → List Char} (hfeed : f '\n' = ['\n'])
    (hother : ∀ c, c ≠ '\n' → f c ≠ [] ∧ '\n' ∉ f c) :
    UpToLineFeed P (cs.flatMap f) ↔ UpToLineFeed (fun w => P (w.flatMap f)) cs := by
  refine or_congr Iff.rfl ⟨?_, ?_⟩
  · rintro ⟨v, hv, hP⟩
    obtain rfl | ⟨w, c, rfl⟩ := cs.eq_nil_or_concat
    · simp at hv
    rw [List.concat_eq_append, List.flatMap_append, List.flatMap_singleton] at hv
    by_cases hc : c = '\n'
    · rw [hc, hfeed] at hv
      obtain rfl := List.append_cancel_right hv
      exact ⟨w, by simp [hc], hP⟩
    · obtain ⟨hne, hfree⟩ := hother c hc
      have hlast : (f c).getLast? = some '\n' := by
        have hlast := congrArg List.getLast? hv
        rwa [List.getLast?_append_of_ne_nil _ hne, List.getLast?_concat] at hlast
      exact absurd (List.mem_of_getLast? hlast) hfree
  · rintro ⟨w, rfl, hP⟩
    exact ⟨w.flatMap f, by simp [hfeed], hP⟩

end LineFeed

/-! ### Keys without a message -/

/-- A line feed at the end of a text is looked through. -/
lemma isAccepted_iff {cs : List Char} : isAccepted cs = true ↔ UpToLineFeed IsKeyWord cs := by
  rw [isAccepted, Bool.or_eq_true, Bool.and_eq_true, isConventional_iff, isConventional_iff,
    beq_iff_eq]
  refine or_congr Iff.rfl ⟨?_, ?_⟩
  · rintro ⟨hlast, h⟩
    exact ⟨cs.dropLast, (List.dropLast_append_getLast? _ hlast).symm, h⟩
  · rintro ⟨w, rfl, hw⟩
    simpa using hw

/-- No message is given for metadata and for what is accepted. -/
lemma keyMessage?_eq_none_iff {key parent file : String} : keyMessage? key parent file = none ↔
    key.toList.head? = some '$' ∨ isAccepted key.toList = true := by
  rw [keyMessage?, ← beq_iff_eq (a := key.toList.head?), ← isMetadataKey]
  split
  · next h => exact iff_of_true rfl (by simpa using h)
  · next h => exact iff_of_false (by simp) (by simpa using h)

/-- **The keys without a message** are those of metadata and the words of the language, with a line
feed at their end or without. -/
theorem key_unreported_iff (key parent file : String) :
    keyMessage? key parent file = none ↔
      key.toList.head? = some '$' ∨ UpToLineFeed IsKeyWord key.toList := by
  rw [keyMessage?_eq_none_iff, isAccepted_iff]

/-- A word with a line feed behind it is no word of the language, and there is no message for it. -/
theorem final_line_feed_unreported :
    keyMessage? "gap\n" "root" "gaps.json" = none ∧ "gap\n".toList.head? ≠ some '$' ∧
      ¬ IsKeyWord "gap\n".toList :=
  ⟨by decide, by decide, by decide⟩

end StyleTokens
