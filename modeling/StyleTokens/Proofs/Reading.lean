import Mathlib.Data.List.TakeWhile
import Mathlib.Tactic.Common
import StyleTokens.Token.Reference

/-!
Reading the references of a text.

* `Reference.IsName`, `Reference.braced`: the names that a reference can have, and a reference as
  text;
* `Reference.Free`: no reference stands in the text;
* `pieces_braced`: wherever a reference stands in a text, the pieces of the text are those before
  it, the reference, and those after it;
* `names_eq_nil_iff`: the names of a text are none exactly if it is free of references;
* `whole?_eq_some_iff`: the texts that are one reference and white space;
* `mem_pieces_of_whole`: no other reference is read in such a text.
-/

namespace StyleTokens

/-! ### White space at the ends of a text -/

namespace Text

/-- Trimming takes characters of the class away at both ends. -/
lemma exists_trim (p : Char → Bool) (cs : List Char) :
    ∃ front back, cs = front ++ trim p cs ++ back ∧
      (∀ c ∈ front, p c = true) ∧ ∀ c ∈ back, p c = true := by
  refine ⟨cs.takeWhile p, ((cs.dropWhile p).reverse.takeWhile p).reverse, ?_, ?_, ?_⟩
  · rw [trim, List.append_assoc, ← List.reverse_append, List.takeWhile_append_dropWhile,
      List.reverse_reverse, List.takeWhile_append_dropWhile]
  · intro c hc
    exact List.mem_takeWhile_imp hc
  · intro c hc
    exact List.mem_takeWhile_imp (List.mem_reverse.mp hc)

/-- The first character that is left is not of the class. -/
lemma head_trim {p : Char → Bool} {cs : List Char} {c : Char} (h : c ∈ (trim p cs).head?) :
    p c = false := by
  -- what is left begins like the text after its front
  have hpre : trim p cs <+: cs.dropWhile p := by
    rw [trim, ← List.reverse_suffix, List.reverse_reverse]
    exact List.dropWhile_suffix p
  obtain ⟨rest, hrest⟩ := hpre
  have hc : c ∈ (cs.dropWhile p).head? := by
    rw [← hrest, List.head?_append]
    simp [Option.mem_def.mp h]
  have hne := List.head?_dropWhile_not p cs
  rw [Option.mem_def.mp hc] at hne
  simpa using hne

/-- The last character that is left is not of the class. -/
lemma getLast_trim {p : Char → Bool} {cs : List Char} {c : Char}
    (h : c ∈ (trim p cs).getLast?) : p c = false := by
  have hne := List.head?_dropWhile_not p (cs.dropWhile p).reverse
  rw [trim, List.getLast?_reverse] at h
  rw [Option.mem_def.mp h] at hne
  simpa using hne

/-- Trimming a second time removes nothing. -/
@[simp] lemma trim_trim (p : Char → Bool) (cs : List Char) : trim p (trim p cs) = trim p cs :=
  trim_eq_self (fun _ h => head_trim h) fun _ h => getLast_trim h

@[simp] lemma strip_strip (cs : List Char) : strip (strip cs) = strip cs := trim_trim _ cs

@[simp] lemma stripped_stripped (s : String) : stripped (stripped s) = stripped s := by
  simp [stripped]

/-- Braces are not white space. -/
lemma not_mem_of_blank {c : Char} (hc : isBlank c = false) {cs : List Char}
    (h : ∀ d ∈ cs, isBlank d = true) : c ∉ cs := by
  intro hmem
  rw [h c hmem] at hc
  exact absurd hc (by decide)

end Text

namespace Reference

/-! ### References as text -/

/-- Can a reference have the name? It is not empty and holds no brace. -/
def IsName (name : List Char) : Prop := name ≠ [] ∧ '{' ∉ name ∧ '}' ∉ name

instance (name : List Char) : Decidable (IsName name) :=
  inferInstanceAs (Decidable (_ ∧ _ ∧ _))

/-- A reference as text. -/
def braced (name : List Char) : List Char := '{' :: name ++ ['}']

/-- No reference stands in the text. -/
def Free (cs : List Char) : Prop :=
  ∀ before name after, IsName name → cs ≠ before ++ braced name ++ after

/-- The texts of pieces that are references, and of those that are characters. -/
@[simp] lemma text_reference (name : List Char) : (Piece.reference name).text = braced name := rfl

@[simp] lemma text_char (c : Char) : (Piece.char c).text = [c] := rfl

/-- Characters make up their own text. -/
@[simp] lemma flatMap_text_chars (cs : List Char) : (chars cs).flatMap Piece.text = cs := by
  induction cs with
  | nil => rfl
  | cons c cs ih => simpa [chars] using ih

/-! ### The pieces around an opening brace -/

/-- An opening brace begins anew whatever stands before it. -/
lemma scan_append_open (opened : Option (List Char)) (cs rest : List Char) :
    scan opened (cs ++ '{' :: rest) = scan opened cs ++ scan (some []) rest := by
  induction cs generalizing opened with
  | nil => cases opened <;> simp [scan]
  | cons c cs ih =>
      cases opened with
      | none =>
          rw [List.cons_append, scan, scan]
          split
          · exact ih _
          · rw [ih, List.cons_append]
      | some acc =>
          rw [List.cons_append, scan, scan]
          split
          · rw [ih, List.append_assoc]
          · split
            · split <;> simp [ih]
            · exact ih _

/-- A name and a closing brace end a reference that is open. -/
lemma scan_name {acc name : List Char} (hopen : '{' ∉ name) (hclose : '}' ∉ name)
    (hne : acc.reverse ++ name ≠ []) (rest : List Char) :
    scan (some acc) (name ++ '}' :: rest)
      = .reference (acc.reverse ++ name) :: scan none rest := by
  induction name generalizing acc with
  | nil =>
      have hacc : acc ≠ [] := by simpa using hne
      simp [scan, hacc]
  | cons c name ih =>
      have h1 : c ≠ '{' := fun e => hopen (by simp [e])
      have h2 : c ≠ '}' := fun e => hclose (by simp [e])
      rw [List.cons_append, scan, if_neg h1, if_neg h2,
        ih (fun h => hopen (by simp [h])) (fun h => hclose (by simp [h])) (by simp)]
      simp

/-- **A reference is read wherever it stands**: the pieces of a text are those before the
reference, the reference, and those after it. -/
theorem pieces_braced {name : List Char} (h : IsName name) (before after : List Char) :
    pieces (before ++ braced name ++ after)
      = pieces before ++ .reference name :: pieces after := by
  obtain ⟨hne, hopen, hclose⟩ := h
  have hshape : before ++ braced name ++ after = before ++ '{' :: (name ++ '}' :: after) := by
    simp [braced]
  rw [hshape, pieces, scan_append_open, scan_name hopen hclose (by simpa using hne)]
  rfl

/-- A text without an opening brace is read as its characters, whatever follows. -/
lemma pieces_append {cs : List Char} (h : '{' ∉ cs) (rest : List Char) :
    pieces (cs ++ rest) = chars cs ++ pieces rest := by
  induction cs with
  | nil => rfl
  | cons c cs ih =>
      have hc : c ≠ '{' := fun e => h (by simp [e])
      have hr : '{' ∉ cs := fun e => h (by simp [e])
      have ih := ih hr
      rw [pieces] at ih ⊢
      rw [List.cons_append, scan, if_neg hc, ih]
      rfl

/-- A text without an opening brace is read as its characters. -/
lemma pieces_eq_chars {cs : List Char} (h : '{' ∉ cs) : pieces cs = chars cs := by
  simpa [pieces, scan] using pieces_append h []

/-! ### The names that are read -/

/-- Only names are read as references. -/
lemma isName_of_mem_scan {opened : Option (List Char)} {cs name : List Char}
    (hopened : ∀ acc ∈ opened, '{' ∉ acc ∧ '}' ∉ acc)
    (h : .reference name ∈ scan opened cs) : IsName name := by
  induction cs generalizing opened with
  | nil => cases opened <;> simp [scan, chars] at h
  | cons c cs ih =>
      cases opened with
      | none =>
          rw [scan] at h
          split at h
          · exact ih (by simp) h
          · have h : .reference name ∈ scan none cs := by simpa using h
            exact ih (by simp) h
      | some acc =>
          obtain ⟨h1, h2⟩ := hopened acc rfl
          rw [scan] at h
          split at h
          · have h : .reference name ∈ scan (some []) cs := by simpa [chars] using h
            exact ih (by simp) h
          · split at h
            · split at h
              · have h : .reference name ∈ scan none cs := by simpa using h
                exact ih (by simp) h
              · next hne =>
                  rcases List.mem_cons.mp h with h | h
                  · obtain rfl := Piece.reference.inj h
                    exact ⟨by simpa using hne, by simpa using h1, by simpa using h2⟩
                  · exact ih (by simp) h
            · next ho hc =>
                refine ih ?_ h
                rintro _ ⟨⟩
                exact ⟨by simp [h1, Ne.symm ho], by simp [h2, Ne.symm hc]⟩

lemma isName_of_mem_pieces {cs name : List Char} (h : .reference name ∈ pieces cs) :
    IsName name :=
  isName_of_mem_scan (by simp) h

/-- A reference that is read stands in the text. -/
lemma exists_of_mem_pieces {cs name : List Char} (h : .reference name ∈ pieces cs) :
    ∃ before after, cs = before ++ braced name ++ after := by
  obtain ⟨front, back, hcs⟩ := List.append_of_mem h
  refine ⟨front.flatMap Piece.text, back.flatMap Piece.text, ?_⟩
  rw [← pieces_text cs, hcs]
  simp

/-- A text is free of references if none is read in it. -/
lemma free_iff_not_mem_pieces {cs : List Char} :
    Free cs ↔ ∀ name, .reference name ∉ pieces cs := by
  constructor
  · intro hfree name hmem
    obtain ⟨before, after, hcs⟩ := exists_of_mem_pieces hmem
    exact hfree before name after (isName_of_mem_pieces hmem) hcs
  · intro hnone before name after hname hcs
    refine hnone name ?_
    rw [hcs, pieces_braced hname]
    simp

/-- A text is free of references if it is read as its characters. -/
lemma free_iff_pieces {cs : List Char} : Free cs ↔ pieces cs = chars cs := by
  rw [free_iff_not_mem_pieces]
  constructor
  · intro hnone
    have hall : ∀ ps : List Piece, (∀ name, .reference name ∉ ps) →
        ps = chars (ps.flatMap Piece.text) := by
      intro ps
      induction ps with
      | nil => intro _; rfl
      | cons p ps ih =>
          intro h
          cases p with
          | char c => simpa [chars] using ih fun name hm => h name (by simp [hm])
          | reference name => exact absurd (by simp) (h name)
    simpa [pieces_text] using hall _ hnone
  · intro h name
    simp [h, chars]

/-- The name of a piece that is a reference, without white space around it. -/
def Piece.name? : Piece → Option (List Char)
  | .reference name => some (Text.strip name)
  | .char _ => none

lemma names_eq_filterMap (cs : List Char) : names cs = (pieces cs).filterMap Piece.name? := rfl

/-- The names of a text are those of the references that are read in it. -/
lemma mem_names {cs name : List Char} :
    name ∈ names cs ↔ ∃ raw, .reference raw ∈ pieces cs ∧ Text.strip raw = name := by
  rw [names_eq_filterMap, List.mem_filterMap]
  constructor
  · rintro ⟨p, hp, hname⟩
    cases p with
    | char c => exact absurd hname (by simp [Piece.name?])
    | reference raw => exact ⟨raw, hp, by simpa [Piece.name?] using hname⟩
  · rintro ⟨raw, hraw, rfl⟩
    exact ⟨_, hraw, rfl⟩

/-- The names of a text are none exactly if no reference stands in it. -/
theorem names_eq_nil_iff {cs : List Char} : names cs = [] ↔ Free cs := by
  rw [free_iff_not_mem_pieces, List.eq_nil_iff_forall_not_mem]
  constructor
  · intro h name hmem
    exact h _ (mem_names.mpr ⟨name, hmem, rfl⟩)
  · intro h name hmem
    obtain ⟨raw, hraw, -⟩ := mem_names.mp hmem
    exact h raw hraw

/-! ### Texts that are one reference -/

/-- The texts that are one reference and white space around it. -/
theorem whole?_eq_some_iff {cs name : List Char} :
    whole? cs = some name ↔ IsName name ∧ Text.strip cs = braced name := by
  constructor
  · intro h
    rw [whole?] at h
    split at h
    · next raw hraw =>
        obtain rfl := Option.some.inj h
        have hmem : .reference raw ∈ pieces (Text.strip cs) := by simp [hraw]
        refine ⟨isName_of_mem_pieces hmem, ?_⟩
        rw [← pieces_text (Text.strip cs), hraw]
        simp
    · exact absurd h (by simp)
  · rintro ⟨hname, hstrip⟩
    have hpieces : pieces (braced name) = [.reference name] := by
      simpa [pieces, scan] using pieces_braced hname [] []
    rw [whole?, hstrip, hpieces]

/-- A text that is one reference has no other one in the white space around it. -/
lemma pieces_of_whole {cs name : List Char} (h : whole? cs = some name) :
    ∃ front back, pieces cs = chars front ++ .reference name :: chars back := by
  obtain ⟨hname, hstrip⟩ := whole?_eq_some_iff.mp h
  obtain ⟨front, back, hcs, hfront, hback⟩ := Text.exists_trim Text.isBlank cs
  have htrim : Text.trim Text.isBlank cs = braced name := hstrip
  refine ⟨front, back, ?_⟩
  rw [hcs, htrim, pieces_braced hname,
    pieces_eq_chars (Text.not_mem_of_blank (by decide) hfront),
    pieces_eq_chars (Text.not_mem_of_blank (by decide) hback)]

/-- The only reference that is read in a text that is one reference. -/
lemma mem_pieces_of_whole {cs name raw : List Char} (h : whole? cs = some name) :
    .reference raw ∈ pieces cs ↔ raw = name := by
  obtain ⟨front, back, hpieces⟩ := pieces_of_whole h
  simp [hpieces, chars]

end Reference

end StyleTokens
