import StyleTokens.Proofs.LineBreaks

/-!
Headers as comments.

* `infix_append_cons_iff`, `OnlyAtEnd`: where a word stands in a text;
* `LineEnds`, `LineEnds.lines`: the characters that end a line in a language, and the lines of a text;
* `LineEnds.lines_joinLines_iff`: lines are read again if no line ends in one of them;
* `CommentSyntax.IsComment`: a text that is one comment, from its beginning to its end;
* `CommentSyntax.IsEndedBy`: the texts that end a comment;
* `CommentSyntax.Encloses`, `CommentSyntax.encloses_iff`: a text is read as the comments that lines are
  written as, and for which lines it is;
* `Moment.not_isEndedBy_stamp`: the time stamp of a moment ends no comment;
* `OutputFormat.encloses_header_iff`: so title and time stamp decide it for the files of a format;
* `Output.header_enclosed_iff`: the same for all headers. `Output.broken_title_leaves_comment` is a
  title that is not only in comments.
-/

namespace StyleTokens

open Json (IsPrintable)
open Output (joinLines)
open Text (IsLineBreak)

/-! ### Words in texts -/

section Words

variable {α : Type} {w a b : List α} {c : α}

/-- A word without a character is in a text around this character if it is on one side of it. -/
lemma infix_append_cons_iff (hc : c ∉ w) : w <:+: a ++ c :: b ↔ w <:+: a ∨ w <:+: b := by
  constructor
  · intro h
    rcases List.infix_append_iff.mp h with h | h | ⟨before, after, rfl, hbefore, hafter⟩
    · exact .inl h
    · rcases List.infix_cons_iff.mp h with h | h
      · rcases List.prefix_cons_iff.mp h with rfl | ⟨rest, rfl, -⟩
        · exact .inl List.nil_infix
        · exact absurd List.mem_cons_self hc
      · exact .inr h
    · rcases List.prefix_cons_iff.mp hafter with rfl | ⟨rest, rfl, -⟩
      · rw [List.append_nil]
        exact .inl hbefore.isInfix
      · exact absurd (List.mem_append_right before List.mem_cons_self) hc
  · rintro (h | h)
    · exact h.trans (List.prefix_append a _).isInfix
    · exact (List.infix_cons h).trans (List.suffix_append a _).isInfix

/-- So it is if many texts are joined by the character. -/
lemma infix_intercalate_iff (hc : c ∉ w) (hw : w ≠ []) (parts : List (List α)) :
    w <:+: [c].intercalate parts ↔ ∃ part ∈ parts, w <:+: part := by
  induction parts with
  | nil => simpa using hw
  | cons part parts ih =>
      cases parts with
      | nil => simp
      | cons next parts =>
          rw [List.intercalate_cons_cons, List.append_assoc, List.singleton_append,
            infix_append_cons_iff hc, ih]
          simp

/-- Such a word stands in lines that are joined exactly if it stands in one of them. -/
lemma infix_joinLines_iff {w : List Char} (hfeed : '\n' ∉ w) (hw : w ≠ []) (texts : List String) :
    w <:+: (joinLines texts).toList ↔ ∃ s ∈ texts, w <:+: s.toList := by
  have hparts := infix_intercalate_iff (c := '\n') hfeed hw (texts.map String.toList)
  rw [joinLines, String.toList_intercalate]
  refine hparts.trans ?_
  simp only [List.mem_map, exists_exists_and_eq_and]

/-- The parts of a text between separators have none of these. -/
lemma eq_false_of_mem_splitOnP {p : α → Bool} (xs : List α) :
    ∀ part ∈ xs.splitOnP p, ∀ x ∈ part, p x = false := by
  induction xs with
  | nil => simp
  | cons x xs ih =>
      rw [List.splitOnP_cons_eq_if_modifyHead]
      split
      · exact List.forall_mem_cons.mpr ⟨List.forall_mem_nil _, ih⟩
      · next hx =>
          obtain ⟨first, rest, hparts⟩ := List.exists_cons_of_ne_nil (List.splitOnP_ne_nil p xs)
          rw [hparts] at ih ⊢
          obtain ⟨hfirst, hrest⟩ := List.forall_mem_cons.mp ih
          have hcons := List.forall_mem_cons.mpr ⟨Bool.not_eq_true _ ▸ hx, hfirst⟩
          exact List.forall_mem_cons.mpr ⟨hcons, hrest⟩

/-- The word ends the text, and stands nowhere else in it. -/
def OnlyAtEnd (w text : List α) : Prop := w <:+ text ∧ ¬ w <:+: text.dropLast

/-- A word behind a character that it does not have stands there alone if it is not before. -/
lemma onlyAtEnd_append_iff (hc : c ∉ w) (hw : w ≠ []) :
    OnlyAtEnd w (a ++ [c] ++ w) ↔ ¬ w <:+: a := by
  have hshort : ¬ w <:+: w.dropLast := by
    intro h
    have hle := h.length_le
    have hpos := List.length_pos_iff.mpr hw
    rw [List.length_dropLast] at hle
    omega
  rw [OnlyAtEnd, and_iff_right (List.suffix_append _ w), List.dropLast_append_of_ne_nil hw,
    List.append_assoc, List.singleton_append, infix_append_cons_iff hc, or_iff_left hshort]

end Words

/-! ### Lines -/

/-- The characters that end a line in a language: the line feed, and others that do so somewhere. -/
structure LineEnds where
  chars : List Char
  feed_mem : '\n' ∈ chars
  isLineBreak : ∀ d ∈ chars, IsLineBreak d

/-- All characters that end lines somewhere. -/
instance : Inhabited LineEnds := ⟨⟨Text.lineBreaks, by decide, fun _ h => h⟩⟩

namespace LineEnds

variable {ends : LineEnds} {s l : String}

/-- The lines of a text. -/
def lines (ends : LineEnds) (s : String) : List String :=
  (s.toList.splitOnP (· ∈ ends.chars)).map String.ofList

/-- Does a line end in the text? -/
def EndsIn (ends : LineEnds) (s : String) : Prop := ∃ d ∈ s.toList, d ∈ ends.chars

lemma endsIn_append_iff (s s' : String) : ends.EndsIn (s ++ s') ↔ ends.EndsIn s ∨ ends.EndsIn s' := by
  simp only [EndsIn, String.toList_append, List.mem_append, or_and_right, exists_or]

/-- No line ends in printable characters. -/
lemma not_endsIn (h : ∀ c ∈ s.toList, IsPrintable c) : ¬ ends.EndsIn s := by
  rintro ⟨d, hd, hmem⟩
  exact (ends.isLineBreak d hmem).not_isPrintable (h d hd)

/-- The same for a text that is given. -/
lemma not_endsIn_of_all (h : s.toList.all (fun c => decide (IsPrintable c)) = true) :
    ¬ ends.EndsIn s := not_endsIn fun _ => Json.isPrintable_of_all h

/-- No line ends in a line. -/
lemma not_endsIn_of_mem_lines (h : l ∈ ends.lines s) : ¬ ends.EndsIn l := by
  obtain ⟨part, hpart, rfl⟩ := List.mem_map.mp h
  rintro ⟨d, hd, hmem⟩
  rw [String.toList_ofList] at hd
  exact of_decide_eq_false (eq_false_of_mem_splitOnP _ part hpart d hd) hmem

lemma lines_eq_singleton (h : ¬ ends.EndsIn s) : ends.lines s = [s] := by
  rw [lines, List.splitOnP_eq_singleton fun d hd => decide_eq_false fun hmem => h ⟨d, hd, hmem⟩,
    List.map_singleton, String.ofList_toList]

lemma lines_append_feed (h : ¬ ends.EndsIn s) (rest : String) :
    ends.lines (s ++ "\n" ++ rest) = s :: ends.lines rest := by
  have hs := lines_eq_singleton h
  rw [lines] at hs
  have hlist : (s ++ "\n" ++ rest).toList = s.toList ++ '\n' :: rest.toList := by
    simp [String.toList_append]
  have hfeed : decide ('\n' ∈ ends.chars) = true := decide_eq_true ends.feed_mem
  rw [lines, hlist, List.splitOnP_append_cons s.toList rest.toList hfeed, List.map_append, hs, lines]
  rfl

lemma mem_lines_between (hs : ¬ ends.EndsIn s) (hl : ¬ ends.EndsIn l) (rest : String) :
    l ∈ ends.lines (s ++ "\n" ++ l ++ "\n" ++ rest) := by
  have hassoc : s ++ "\n" ++ l ++ "\n" ++ rest = s ++ "\n" ++ (l ++ "\n" ++ rest) := by
    simp only [String.append_assoc]
  rw [hassoc, lines_append_feed hs, lines_append_feed hl]
  exact List.mem_cons_of_mem s List.mem_cons_self

/-- **Lines that are joined are read again exactly if no line ends in one of them.** -/
theorem lines_joinLines_iff {texts : List String} (hne : texts ≠ []) :
    ends.lines (joinLines texts) = texts ↔ ∀ s ∈ texts, ¬ ends.EndsIn s := by
  refine ⟨fun h s hs => not_endsIn_of_mem_lines (h.symm ▸ hs), fun h => ?_⟩
  induction texts with
  | nil => exact absurd rfl hne
  | cons s texts ih =>
      obtain ⟨hs, htexts⟩ := List.forall_mem_cons.mp h
      cases texts with
      | nil => rw [joinLines_singleton, lines_eq_singleton hs]
      | cons next texts =>
          rw [joinLines_cons_cons, lines_append_feed hs, ih (List.cons_ne_nil _ _) htexts]

end LineEnds

/-! ### Comments -/

namespace CommentSyntax

/-- What comments begin with. -/
def opening : CommentSyntax → String
  | .block => "/*"
  | .line => "//"
  | .hash => "#"
  | .apostrophe => "'"
  | .xml => "<!--"

/-- What comments are closed with, unless they go on to the end of the line. -/
def closing : CommentSyntax → String
  | .block => "*/"
  | .xml => "-->"
  | _ => ""

/-- What stands in a comment only where it is closed. In markup two dashes do, whatever is behind. -/
def stop? : CommentSyntax → Option String
  | .block => some "*/"
  | .xml => some "--"
  | _ => none

/-- The text is one comment, from its beginning to its end. -/
def IsComment (style : CommentSyntax) (s : String) : Prop :=
  ∃ inside, s.toList = style.opening.toList ++ inside ++ style.closing.toList ∧
    ∀ stop ∈ style.stop?, OnlyAtEnd stop.toList (inside ++ stop.toList)

lemma IsComment.opening_prefix {style : CommentSyntax} {s : String} (h : style.IsComment s) :
    style.opening.toList <+: s.toList := by
  obtain ⟨inside, hs, -⟩ := h
  rw [hs, List.append_assoc]
  exact List.prefix_append _ _

/-- The text ends a comment that it stands in, or its line if comments have one line. -/
def IsEndedBy (style : CommentSyntax) (ends : LineEnds) (s : String) : Prop :=
  (∃ stop ∈ style.stop?, stop.toList <:+: s.toList) ∨ style ≠ .block ∧ ends.EndsIn s

variable {style : CommentSyntax} {ends : LineEnds} {s : String}

lemma blank_notMem_stop : ∀ stop ∈ style.stop?, ' ' ∉ stop.toList := by
  cases style <;> decide

lemma stop_ne_nil : ∀ stop ∈ style.stop?, stop.toList ≠ [] := by
  cases style <;> decide

/-- Texts with a blank between them end a comment exactly if one of them does. -/
lemma isEndedBy_append_blank_iff (s s' : String) :
    style.IsEndedBy ends (s ++ " " ++ s') ↔ style.IsEndedBy ends s ∨ style.IsEndedBy ends s' := by
  have hlist : (s ++ " " ++ s').toList = s.toList ++ ' ' :: s'.toList := by
    simp [String.toList_append]
  have hstops : (∃ stop ∈ style.stop?, stop.toList <:+: (s ++ " " ++ s').toList) ↔
      (∃ stop ∈ style.stop?, stop.toList <:+: s.toList) ∨
        ∃ stop ∈ style.stop?, stop.toList <:+: s'.toList := by
    rw [← exists_or, hlist]
    refine exists_congr fun stop => ?_
    rw [← and_or_left]
    exact and_congr_right fun h => infix_append_cons_iff (blank_notMem_stop stop h)
  have hends : ends.EndsIn (s ++ " " ++ s') ↔ ends.EndsIn s ∨ ends.EndsIn s' := by
    have hnone : ¬ ends.EndsIn " " := LineEnds.not_endsIn_of_all (by decide)
    rw [LineEnds.endsIn_append_iff, LineEnds.endsIn_append_iff, or_iff_left hnone]
  rw [IsEndedBy, hstops, hends, IsEndedBy, IsEndedBy, and_or_left]
  exact or_or_or_comm

lemma not_isEndedBy_iff : ¬ style.IsEndedBy ends s ↔
    (∀ stop ∈ style.stop?, ¬ stop.toList <:+: s.toList) ∧ (style ≠ .block → ¬ ends.EndsIn s) := by
  simp only [IsEndedBy, not_or, not_exists, not_and]

/-- Printable characters without a stop end no comment. -/
lemma not_isEndedBy (hprintable : ∀ c ∈ s.toList, IsPrintable c)
    (hstop : ∀ stop ∈ style.stop?, ¬ stop.toList <:+: s.toList) : ¬ style.IsEndedBy ends s :=
  not_isEndedBy_iff.mpr ⟨hstop, fun _ => LineEnds.not_endsIn hprintable⟩

/-- The same for a text that is given. -/
lemma not_isEndedBy_of_all (hprintable : s.toList.all (fun c => decide (IsPrintable c)) = true)
    (hstop : ∀ stop ∈ style.stop?, Text.occursIn stop.toList s.toList = false) :
    ¬ style.IsEndedBy ends s := by
  refine not_isEndedBy (fun _ => Json.isPrintable_of_all hprintable) fun stop hmem h => ?_
  rw [← Text.occursIn_iff, hstop stop hmem] at h
  cases h

/-- A text that is closed behind a blank is a comment exactly if it has no stop before. -/
lemma isComment_iff {body : List Char}
    (h : s.toList = style.opening.toList ++ (body ++ [' ']) ++ style.closing.toList) :
    style.IsComment s ↔ ∀ stop ∈ style.stop?, ¬ stop.toList <:+: body := by
  have hinside : ∀ inside, s.toList = style.opening.toList ++ inside ++ style.closing.toList ↔
      inside = body ++ [' '] := by
    intro inside
    rw [h, List.append_cancel_right_eq, List.append_cancel_left_eq, eq_comm]
  simp only [IsComment, hinside, exists_eq_left]
  exact forall₂_congr fun stop hmem =>
    onlyAtEnd_append_iff (blank_notMem_stop stop hmem) (stop_ne_nil stop hmem)

/-- The comment that a line is written as where every line is a comment of its own. -/
def ofLine (style : CommentSyntax) (l : String) : String :=
  style.opening ++ " " ++ l ++ if style = .xml then " -->" else ""

lemma comment_eq_map (hstyle : style ≠ .block) (texts : List String) :
    Output.CommentSyntax.comment style texts = texts.map style.ofLine := by
  cases style with
  | block => exact absurd rfl hstyle
  | xml => rfl
  | _ => exact List.map_congr_left fun l _ => (String.append_empty).symm

/-- Such a comment is one exactly if its line has no stop. -/
lemma isComment_ofLine_iff (hstyle : style ≠ .block) (l : String) :
    style.IsComment (style.ofLine l) ↔ ∀ stop ∈ style.stop?, ¬ stop.toList <:+: l.toList := by
  cases style with
  | block => exact absurd rfl hstyle
  | xml =>
      have hlist : (ofLine .xml l).toList
          = (opening .xml).toList ++ ([] ++ ' ' :: l.toList ++ [' ']) ++ (closing .xml).toList := by
        simp [ofLine, opening, closing, String.toList_append]
      rw [isComment_iff hlist]
      refine forall₂_congr fun stop hstop => not_congr ?_
      rw [infix_append_cons_iff (blank_notMem_stop stop hstop), List.infix_nil,
        or_iff_right (stop_ne_nil stop hstop)]
  | _ =>
      refine iff_of_true ⟨' ' :: l.toList, ?_, fun stop hstop => ?_⟩ fun stop hstop => ?_
      · simp [ofLine, opening, closing, String.toList_append]
      · cases hstop
      · cases hstop

/-- Lines end in such a comment as they do in its line. -/
lemma endsIn_ofLine_iff (l : String) : ends.EndsIn (style.ofLine l) ↔ ends.EndsIn l := by
  have hopening : ¬ ends.EndsIn (style.opening ++ " ") := by
    cases style <;> exact LineEnds.not_endsIn_of_all (by decide)
  have hclosing : ¬ ends.EndsIn (if style = .xml then " -->" else "") := by
    split <;> exact LineEnds.not_endsIn_of_all (by decide)
  rw [ofLine, LineEnds.endsIn_append_iff, LineEnds.endsIn_append_iff, or_iff_left hclosing,
    or_iff_right hopening]

/-- A comment over many lines, with its opening and its closing apart. -/
lemma joinLines_comment_block (texts : List String) :
    joinLines (Output.CommentSyntax.comment .block texts)
      = "/*" ++ joinLines ("*" :: texts.map (" * " ++ ·) ++ [""]) ++ " */" := by
  have hfirst : ∀ rest, joinLines ("/**" :: rest) = "/*" ++ joinLines ("*" :: rest) := by
    intro rest
    cases rest with
    | nil => rfl
    | cons l rest =>
        rw [joinLines_cons_cons, joinLines_cons_cons, ← String.append_assoc, ← String.append_assoc]
        rfl
  rw [Output.CommentSyntax.comment, joinLines_append (List.cons_ne_nil _ _) (List.cons_ne_nil _ _),
    joinLines_append (List.cons_ne_nil _ _) (List.cons_ne_nil _ _), hfirst, joinLines_singleton,
    joinLines_singleton, String.append_empty]
  simp only [String.append_assoc]

/-- It is one exactly if its lines have no stop. -/
lemma isComment_block_iff (texts : List String) :
    IsComment .block (joinLines (Output.CommentSyntax.comment .block texts)) ↔
      ∀ stop ∈ stop? .block, ∀ l ∈ texts, ¬ stop.toList <:+: l.toList := by
  have hlist : (joinLines (Output.CommentSyntax.comment .block texts)).toList
      = (opening .block).toList ++
        ((joinLines ("*" :: texts.map (" * " ++ ·) ++ [""])).toList ++ [' ']) ++
        (closing .block).toList := by
    rw [joinLines_comment_block]
    simp [opening, closing, String.toList_append]
  rw [isComment_iff hlist]
  refine forall₂_congr fun stop hstop => ?_
  obtain rfl : "*/" = stop := Option.some.inj hstop
  have hline : ∀ l : String, "*/".toList <:+: (" * " ++ l).toList ↔ "*/".toList <:+: l.toList := by
    intro l
    have hnone : ¬ "*/".toList <:+: [' ', '*'] := by decide
    rw [String.toList_append]
    exact (infix_append_cons_iff (a := [' ', '*']) (by decide)).trans (or_iff_right hnone)
  have hfirst : ¬ "*/".toList <:+: "*".toList := by decide
  have hlast : ¬ "*/".toList <:+: "".toList := by decide
  rw [infix_joinLines_iff (by decide) (by decide)]
  simp only [List.mem_append, List.mem_cons, List.mem_map, List.not_mem_nil, or_false, or_and_right,
    exists_or, exists_eq_left, exists_exists_and_eq_and, hfirst, hlast, hline, false_or, not_exists,
    not_and]

end CommentSyntax

/-! ### Texts of comments -/

/-- The comments that a text is read as, if it is nothing else: a comment over many lines, or one on
every line. -/
def LineEnds.comments (ends : LineEnds) : CommentSyntax → String → List String
  | .block, s => [s]
  | _, s => ends.lines s

lemma LineEnds.comments_eq_lines {ends : LineEnds} {style : CommentSyntax} (hstyle : style ≠ .block)
    (s : String) : ends.comments style s = ends.lines s := by
  cases style with
  | block => exact absurd rfl hstyle
  | _ => rfl

/-- The comments that lines are written as. -/
def CommentSyntax.written : CommentSyntax → List String → List String
  | .block, texts => [joinLines (Output.CommentSyntax.comment .block texts)]
  | style, texts => Output.CommentSyntax.comment style texts

namespace CommentSyntax

/-- The text is read as the comments that the lines are written as: none of them ends before its line
does, and there is nothing beside them. -/
structure Encloses (style : CommentSyntax) (ends : LineEnds) (texts : List String) (s : String) :
    Prop where
  comments_eq : ends.comments style s = style.written texts
  isComment : ∀ c ∈ ends.comments style s, style.IsComment c

variable {style : CommentSyntax} {ends : LineEnds} {texts : List String}

/-- What the lines are written as are comments then. -/
lemma encloses_iff_written {s : String} : style.Encloses ends texts s ↔
    ends.comments style s = style.written texts ∧ ∀ c ∈ style.written texts, style.IsComment c := by
  refine ⟨fun h => ⟨h.comments_eq, h.comments_eq ▸ h.isComment⟩, fun h => ⟨h.1, ?_⟩⟩
  rw [h.1]
  exact h.2

/-- **Lines that are written as comments are read as these exactly if no line ends a comment.** -/
theorem encloses_iff (hne : texts ≠ []) :
    style.Encloses ends texts (joinLines (Output.CommentSyntax.comment style texts)) ↔
      ∀ l ∈ texts, ¬ style.IsEndedBy ends l := by
  simp only [encloses_iff_written, not_isEndedBy_iff]
  by_cases hstyle : style = .block
  · subst hstyle
    simp only [LineEnds.comments, written, List.forall_mem_singleton, true_and, isComment_block_iff,
      ne_eq, not_true, false_imp_iff, and_true]
    exact ⟨fun h l hl stop hstop => h stop hstop l hl, fun h stop hstop l hl => h l hl stop hstop⟩
  · have hwritten : style.written texts = texts.map style.ofLine := by
      rw [← comment_eq_map hstyle]
      cases style with
      | block => exact absurd rfl hstyle
      | _ => rfl
    have hmap : texts.map style.ofLine ≠ [] := mt List.map_eq_nil_iff.mp hne
    rw [LineEnds.comments_eq_lines hstyle, hwritten, comment_eq_map hstyle,
      LineEnds.lines_joinLines_iff hmap]
    simp only [List.forall_mem_map, endsIn_ofLine_iff, isComment_ofLine_iff hstyle, ne_eq, hstyle,
      not_false_eq_true, true_imp_iff]
    exact ⟨fun h l hl => ⟨h.2 l hl, h.1 l hl⟩,
      fun h => ⟨fun l hl => (h l hl).2, fun l hl => (h l hl).1⟩⟩

end CommentSyntax

/-! ### Time stamps -/

namespace Moment

/-- The characters that numbers are written with. -/
def digits : List Char := "0123456789".toList

/-- The characters of time stamps. -/
def stampChars : List Char := digits ++ "-+:.TZ".toList

lemma digitChar_mem (n : Nat) : Nat.digitChar (n % 10) ∈ digits := by
  have hall : ∀ d : Fin 10, Nat.digitChar d ∈ digits := by decide
  exact hall ⟨n % 10, Nat.mod_lt n (by decide)⟩

lemma padded_subset (width n : Nat) : padded width n ⊆ digits := by
  induction width generalizing n with
  | zero => exact List.nil_subset _
  | succ width ih =>
      have hlast : [Nat.digitChar (n % 10)] ⊆ digits :=
        List.cons_subset.mpr ⟨digitChar_mem n, List.nil_subset _⟩
      exact List.append_subset.mpr ⟨ih (n / 10), hlast⟩

lemma count_padded (width n : Nat) : (padded width n).count '-' = 0 := by
  have hdash : '-' ∉ digits := by decide
  exact List.count_eq_zero.mpr fun h => hdash (padded_subset width n h)

lemma stamp_subset (m : Moment) : m.stamp.toList ⊆ stampChars := by
  have hpadded : ∀ width n, padded width n ⊆ stampChars := fun width n =>
    List.Subset.trans (padded_subset width n) (List.subset_append_left _ _)
  have hmarks : '-' ∈ stampChars ∧ '+' ∈ stampChars ∧ ':' ∈ stampChars ∧ '.' ∈ stampChars ∧
      'T' ∈ stampChars ∧ 'Z' ∈ stampChars := by decide
  have hoffset : m.offsetText ⊆ stampChars := by
    rw [offsetText]
    split
    · exact List.nil_subset _
    · split
      · simp [hmarks]
      · split <;> simp [List.append_subset, hpadded, hmarks]
  simp [stamp, dateText, timeText, List.append_subset, hpadded, hmarks, hoffset]

/-- A time stamp has no dash right behind another one. -/
lemma not_dashes_infix_stamp (m : Moment) : ¬ "--".toList <:+: m.stamp.toList := by
  have hfew : ∀ {cs : List Char}, cs.count '-' ≤ 1 → ¬ "--".toList <:+: cs := by
    intro cs hle h
    have htwo : "--".toList.count '-' = 2 := by decide
    have hcount := h.count_le '-'
    omega
  have hoffset : m.offsetText.count '-' ≤ 1 := by
    rw [offsetText]
    split
    · decide
    · split
      · decide
      · split <;> simp [count_padded]
  -- Between the dashes are the last digit of the month and the letter behind the date.
  have hcut : m.stamp.toList = (padded 4 m.year ++ '-' :: padded 1 (m.month / 10)) ++
      Nat.digitChar (m.month % 10) :: (('-' :: padded 2 m.day) ++
        'T' :: (m.timeText ++ '.' :: padded 3 (m.microsecond / 1000) ++ m.offsetText)) := by
    simp [stamp, dateText, padded]
  have hdigit : Nat.digitChar (m.month % 10) ∉ "--".toList := by simp
  have hletter : 'T' ∉ "--".toList := by decide
  rw [hcut, infix_append_cons_iff hdigit, infix_append_cons_iff hletter]
  rintro (h | h | h)
  · exact hfew (by simp [count_padded]) h
  · exact hfew (by simp [count_padded]) h
  · exact hfew (by simpa [timeText, count_padded] using hoffset) h

/-- **The time stamp of a moment ends no comment.** -/
theorem not_isEndedBy_stamp (ends : LineEnds) (style : CommentSyntax) (m : Moment) :
    ¬ style.IsEndedBy ends m.stamp := by
  have hprintable : stampChars.all (fun c => decide (IsPrintable c)) = true := by decide
  have hstar : '*' ∉ stampChars := by decide
  refine CommentSyntax.not_isEndedBy
    (fun c hc => Json.isPrintable_of_all hprintable (m.stamp_subset hc)) ?_
  cases style with
  | block =>
      intro stop hstop h
      obtain rfl : "*/" = stop := Option.some.inj hstop
      exact hstar (m.stamp_subset (h.subset List.mem_cons_self))
  | xml =>
      intro stop hstop
      obtain rfl : "--" = stop := Option.some.inj hstop
      exact m.not_dashes_infix_stamp
  | _ => exact fun stop hstop => nomatch hstop

end Moment

/-! ### Headers -/

section Headers

variable {ends : LineEnds} {style : CommentSyntax}

lemma Output.headerLines_ne_nil (options : Fields) (label : String) (now : Moment) :
    headerLines options label now ≠ [] := List.cons_ne_nil _ _

/-- Only the title, the label and a time stamp that is given can end comments in the header. -/
lemma Output.forall_headerLines_iff (options : Fields) (label : String) (now : Moment) :
    (∀ l ∈ headerLines options label now, ¬ style.IsEndedBy ends l) ↔
      ¬ style.IsEndedBy ends (optionText options "title" usualTitle) ∧ ¬ style.IsEndedBy ends label ∧
        ∀ s, options.getD "timestamp" = .str s → ¬ style.IsEndedBy ends s := by
  have hdash : ¬ style.IsEndedBy ends "-" :=
    CommentSyntax.not_isEndedBy_of_all (by decide) (by cases style <;> decide)
  have hwarning : ¬ style.IsEndedBy ends "Auto-generated - DO NOT EDIT" :=
    CommentSyntax.not_isEndedBy_of_all (by decide) (by cases style <;> decide)
  have hgenerated : ¬ style.IsEndedBy ends "Generated:" :=
    CommentSyntax.not_isEndedBy_of_all (by decide) (by cases style <;> decide)
  have hfirst : optionText options "title" usualTitle ++ " - " ++ label
      = optionText options "title" usualTitle ++ " " ++ ("-" ++ " " ++ label) :=
    String.toList_injective (by simp [String.toList_append])
  have hlast : "Generated: " ++ generated options now
      = "Generated:" ++ " " ++ generated options now :=
    String.toList_injective (by simp [String.toList_append])
  have hstamp : ¬ style.IsEndedBy ends (generated options now) ↔
      ∀ s, options.getD "timestamp" = .str s → ¬ style.IsEndedBy ends s := by
    rw [generated]
    split
    · next s hs => simp [hs]
    · next hnone =>
        exact iff_of_true (now.not_isEndedBy_stamp ends style) fun s hs => absurd hs (hnone s)
  rw [← hstamp, headerLines, hfirst, hlast]
  simp only [List.forall_mem_cons, CommentSyntax.isEndedBy_append_blank_iff, hdash, hwarning,
    hgenerated, List.not_mem_nil, false_or, not_or, not_false_eq_true, true_and, and_true,
    false_imp_iff, implies_true, and_assoc]

/-- The files of a format have a header that is comments and nothing else exactly if the title and the
time stamp that is given end none. -/
theorem OutputFormat.encloses_header_iff (f : OutputFormat) (options : Fields) (now : Moment) :
    f.comments.Encloses ends (Output.headerLines options f.label now) (f.header options now) ↔
      ¬ f.comments.IsEndedBy ends (Output.optionText options "title" Output.usualTitle) ∧
        ∀ s, options.getD "timestamp" = .str s → ¬ f.comments.IsEndedBy ends s := by
  have hlabel : ¬ f.comments.IsEndedBy ends f.label := by
    refine CommentSyntax.not_isEndedBy_of_all ?_ ?_ <;> cases f <;> decide
  rw [header, Output.header, CommentSyntax.encloses_iff (Output.headerLines_ne_nil _ _ _),
    Output.forall_headerLines_iff, and_iff_right hlabel]

/-- **A header is comments and nothing else exactly if title, label and the time stamp that is given
end none.** It is one comment over all of its lines, which is closed at its end alone, or every line is
a comment; and these are the comments that were written. -/
theorem Output.header_enclosed_iff (ends : LineEnds) (style : CommentSyntax) (label : String)
    (options : Fields) (now : Moment) :
    style.Encloses ends (headerLines options label now) (header style label options now) ↔
      ¬ style.IsEndedBy ends (optionText options "title" usualTitle) ∧ ¬ style.IsEndedBy ends label ∧
        ∀ s, options.getD "timestamp" = .str s → ¬ style.IsEndedBy ends s := by
  rw [header, CommentSyntax.encloses_iff (headerLines_ne_nil _ _ _), forall_headerLines_iff]

end Headers

namespace Output

/-- A title with what closes comments, and with a text behind a line feed. -/
def brokenTitle : Fields :=
  [("title", .str "Sizes */ -->\nGaps"), ("timestamp", .str "2024-01-01T00:00:00.000Z")]

/-- The header has a part of it that is no comment, in every syntax and wherever lines end. -/
theorem broken_title_leaves_comment :
    (∀ now, header .block "CSS" brokenTitle now = "/**\n * Sizes */ -->\nGaps - CSS\n" ++
      " * Auto-generated - DO NOT EDIT\n * Generated: 2024-01-01T00:00:00.000Z\n */") ∧
    (∀ now, header .line "CSS" brokenTitle now = "// Sizes */ -->\nGaps - CSS\n" ++
      "// Auto-generated - DO NOT EDIT\n// Generated: 2024-01-01T00:00:00.000Z") ∧
    (∀ now, header .xml "CSS" brokenTitle now = "<!-- Sizes */ -->\nGaps - CSS -->\n" ++
      "<!-- Auto-generated - DO NOT EDIT -->\n<!-- Generated: 2024-01-01T00:00:00.000Z -->") ∧
    ∀ (now : Moment) (ends : LineEnds) (style : CommentSyntax),
      ∃ c ∈ ends.comments style (header style "CSS" brokenTitle now), ¬ style.IsComment c := by
  refine ⟨fun _ => rfl, fun _ => rfl, fun _ => rfl, fun now ends style => ?_⟩
  have hlines : headerLines brokenTitle "CSS" now = ["Sizes */ -->\nGaps - CSS",
      "Auto-generated - DO NOT EDIT", "Generated: 2024-01-01T00:00:00.000Z"] := rfl
  rw [header, hlines]
  by_cases hstyle : style = .block
  · subst hstyle
    refine ⟨_, List.mem_singleton_self _, fun h => ?_⟩
    have hstops := (CommentSyntax.isComment_block_iff _).mp h "*/" rfl _ List.mem_cons_self
    exact hstops ⟨"Sizes ".toList, " -->\nGaps - CSS".toList, rfl⟩
  · -- What is behind the line feed is a line without an opening.
    have htitle : style.ofLine "Sizes */ -->\nGaps - CSS" = style.opening ++ " Sizes */ -->" ++ "\n" ++
        ("Gaps - CSS" ++ if style = .xml then " -->" else "") := by
      refine String.toList_injective ?_
      simp [CommentSyntax.ofLine, String.toList_append]
    have hfirst : ¬ ends.EndsIn (style.opening ++ " Sizes */ -->") := by
      cases style <;> exact LineEnds.not_endsIn_of_all (by decide)
    have hsecond : ¬ ends.EndsIn ("Gaps - CSS" ++ if style = .xml then " -->" else "") := by
      cases style <;> exact LineEnds.not_endsIn_of_all (by decide)
    have hopening : ¬ style.opening.toList <+:
        ("Gaps - CSS" ++ if style = .xml then " -->" else "").toList := by
      cases style <;> decide
    refine ⟨_, ?_, fun h => hopening h.opening_prefix⟩
    rw [LineEnds.comments_eq_lines hstyle, CommentSyntax.comment_eq_map hstyle, List.map_cons,
      List.map_cons, joinLines_cons_cons, htitle]
    exact LineEnds.mem_lines_between hfirst hsecond _

end Output

end StyleTokens
