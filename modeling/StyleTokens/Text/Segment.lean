/-!
Cutting a text at separators and joining the segments again.

* `segmentsBy`: the parts of a text between the characters of a class, at least one;
* `segments`: the same for one separator;
* `segments_spec`: a segment is free of the separator;
* `segments_join`: joining segments that are free of the separator is undone by cutting;
* `dotted`, `ofDotted`: lists of names written with a dot between them;
* `occursIn`, `occursIn_iff`: does a text stand somewhere in another one?
-/

namespace StyleTokens.Text

/-- The parts of a text between the separators; a text without any is one part. -/
def segmentsBy (isSep : Char → Bool) : List Char → List (List Char)
  | [] => [[]]
  | c :: cs =>
    if isSep c then [] :: segmentsBy isSep cs
    else match segmentsBy isSep cs with
      | [] => [[c]]
      | part :: parts => (c :: part) :: parts

/-- The parts of a text between the occurrences of one character. -/
def segments (sep : Char) (cs : List Char) : List (List Char) := segmentsBy (· == sep) cs

/-- A text without the separator is its own only segment. -/
theorem segments_eq_singleton {sep : Char} {cs : List Char} (h : sep ∉ cs) :
    segments sep cs = [cs] := by
  induction cs with
  | nil => rfl
  | cons c cs ih =>
    have hc : c ≠ sep := fun e => h (by simp [e])
    have hr : sep ∉ cs := fun e => h (by simp [e])
    have ih := ih hr
    unfold segments at ih
    simp [segments, segmentsBy, hc, ih]

/-- The separator after a text without it ends the first segment. -/
theorem segments_append {sep : Char} {cs : List Char} (h : sep ∉ cs) (rest : List Char) :
    segments sep (cs ++ sep :: rest) = cs :: segments sep rest := by
  induction cs with
  | nil => simp [segments, segmentsBy]
  | cons c cs ih =>
    have hc : c ≠ sep := fun e => h (by simp [e])
    have hr : sep ∉ cs := fun e => h (by simp [e])
    have ih := ih hr
    unfold segments at ih ⊢
    simp [segmentsBy, hc, ih]

/-- A part of a text between separators is free of them and made of characters of the text. -/
theorem segments_spec {sep : Char} {cs part : List Char} (h : part ∈ segments sep cs) :
    sep ∉ part ∧ part ⊆ cs := by
  induction cs generalizing part with
  | nil =>
    obtain rfl : part = [] := by simpa [segments, segmentsBy] using h
    simp
  | cons c cs ih =>
    have hlater : part ∈ segments sep cs → sep ∉ part ∧ part ⊆ c :: cs :=
      fun h => ⟨(ih h).1, List.subset_cons_of_subset c (ih h).2⟩
    rw [segments, segmentsBy] at h
    split at h
    · rcases List.mem_cons.mp h with rfl | h
      · simp
      · exact hlater h
    · next hc =>
        have hne : sep ≠ c := fun heq => hc (by simp [heq])
        split at h
        · obtain rfl : part = [c] := by simpa using h
          simpa using hne
        · next first rest hrest =>
            rcases List.mem_cons.mp h with rfl | h
            · have hfirst : first ∈ segments sep cs := by
                rw [segments, hrest]
                simp
              obtain ⟨hsep, hsub⟩ := ih hfirst
              exact ⟨by simp [hne, hsep], List.cons_subset_cons c hsub⟩
            · exact hlater (by rw [segments, hrest]; simp [h])

/-- Joining segments that are free of the separator is undone by cutting. -/
theorem segments_join {sep : Char} {parts : List (List Char)} (hne : parts ≠ [])
    (h : ∀ part ∈ parts, sep ∉ part) : segments sep ([sep].intercalate parts) = parts := by
  induction parts with
  | nil => exact absurd rfl hne
  | cons part parts ih =>
    cases parts with
    | nil => simpa using segments_eq_singleton (h part (by simp))
    | cons next parts =>
      rw [List.intercalate_cons_cons, List.append_assoc, List.singleton_append,
        segments_append (h part (by simp)), ih (by simp) fun p hp => h p (by simp [hp])]

/-- The names with a dot between them. -/
def dotted (names : List String) : String := ".".intercalate names

/-- The names that a dotted text lists. -/
def ofDotted (s : String) : List String := (segments '.' s.toList).map String.ofList

/-- Does the text stand somewhere in another one? -/
def occursIn (needle : List Char) : List Char → Bool
  | [] => needle.isEmpty
  | c :: cs => needle.isPrefixOf (c :: cs) || occursIn needle cs

/-- A text that stands somewhere in another one is an infix of it. -/
theorem occursIn_iff {needle cs : List Char} : occursIn needle cs = true ↔ needle <:+: cs := by
  induction cs with
  | nil => rw [occursIn, List.isEmpty_iff, List.infix_nil]
  | cons c cs ih =>
    rw [occursIn, Bool.or_eq_true, List.isPrefixOf_iff_prefix, ih, List.infix_cons_iff]

end StyleTokens.Text
