import Mathlib.Tactic.Common
import StyleTokens.Output.Literal
import StyleTokens.Proofs.Basic
import StyleTokens.Token.Transform

/-!
String literals, read back.

* `Reading`, `readBackslashed`, `readDoubled`: what a literal stands for and what follows it, where a
  backslash stands before a character that is meant as it is, and where a mark is written twice;
* `readBackslashed_flatMap`, `readDoubled_flatMap`: what was escaped is read as it was, whatever
  follows;
* `IsMarkedOnce`, `isQuotedOnce_iff`: texts that are literals already;
* `literals_read_back`: no text ends its literal early or late. What follows a literal with marks
  written twice must not begin with a mark.
-/

namespace StyleTokens

namespace Output

/-! ### Reading literals -/

/-- What a reader gives: the characters that were read, and the text behind them. -/
abbrev Reading := Option (List Char × List Char)

/-- One more character in front of those that were read. -/
def Reading.cons (c : Char) (r : Reading) : Reading := r.map fun (cs, rest) => (c :: cs, rest)

/-- Characters in front of those that were read. -/
def Reading.prepend (cs : List Char) (r : Reading) : Reading := r.map fun (ds, rest) => (cs ++ ds, rest)

/-- The inside of a literal up to the mark that ends it. A backslash and any character stand for that
character. -/
def readBackslashed (mark : Char) : List Char → Reading
  | [] => none
  | c :: rest =>
    if c = mark then some ([], rest)
    else if c = '\\' then
      match rest with
      | [] => none
      | d :: rest => Reading.cons d (readBackslashed mark rest)
    else Reading.cons c (readBackslashed mark rest)

/-- The inside of a literal up to the mark that ends it. Two marks stand for one, and backslashes for
themselves. -/
def readDoubled : List Char → Reading
  | [] => none
  | '"' :: '"' :: rest => Reading.cons '"' (readDoubled rest)
  | '"' :: rest => some ([], rest)
  | c :: rest => Reading.cons c (readDoubled rest)

/-- A literal at the front of a text: its opening mark and its inside. -/
def readLiteral (mark : Char) (inside : List Char → Reading) : List Char → Reading
  | [] => none
  | c :: rest => if c = mark then inside rest else none

lemma Reading.cons_prepend (c : Char) (cs : List Char) (r : Reading) :
    Reading.cons c (Reading.prepend cs r) = Reading.prepend (c :: cs) r := by
  cases r <;> rfl

lemma Reading.prepend_nil (r : Reading) : Reading.prepend [] r = r := by
  cases r <;> rfl

lemma Reading.prepend_some (cs ds rest : List Char) :
    Reading.prepend cs (some (ds, rest)) = some (cs ++ ds, rest) := rfl

/-! ### Backslashes -/

section Backslashes

variable {mark : Char}

lemma readBackslashed_mark (rest : List Char) :
    readBackslashed mark (mark :: rest) = some ([], rest) := by
  rw [readBackslashed.eq_def]
  exact if_pos rfl

/-- A character of the text is read as it was, with or without a backslash before it. -/
lemma readBackslashed_backslashed (hmark : mark ≠ '\\') (c : Char) (rest : List Char) :
    readBackslashed mark (backslashed mark c ++ rest)
      = Reading.cons c (readBackslashed mark rest) := by
  rw [backslashed]
  by_cases hc : c = '\\' ∨ c = mark
  · rw [if_pos hc, List.cons_append, List.singleton_append, readBackslashed.eq_def]
    dsimp only
    rw [if_neg hmark.symm, if_pos rfl]
  · obtain ⟨hslash, hend⟩ := not_or.mp hc
    rw [if_neg hc, List.singleton_append, readBackslashed.eq_def]
    dsimp only
    rw [if_neg hend, if_neg hslash]

/-- What was escaped is read as it was, and then what follows. -/
lemma readBackslashed_flatMap (hmark : mark ≠ '\\') (cs rest : List Char) :
    readBackslashed mark (cs.flatMap (backslashed mark) ++ rest)
      = Reading.prepend cs (readBackslashed mark rest) := by
  induction cs with
  | nil => rw [List.flatMap_nil, List.nil_append, Reading.prepend_nil]
  | cons c cs ih =>
      rw [List.flatMap_cons, List.append_assoc, readBackslashed_backslashed hmark, ih,
        Reading.cons_prepend]

/-- A text between marks is read as it was, and reading stops at the closing mark. -/
lemma readLiteral_backslashed (hmark : mark ≠ '\\') (cs following : List Char) :
    readLiteral mark (readBackslashed mark)
        (mark :: cs.flatMap (backslashed mark) ++ [mark] ++ following) = some (cs, following) := by
  calc readLiteral mark (readBackslashed mark)
        (mark :: cs.flatMap (backslashed mark) ++ [mark] ++ following)
      = readBackslashed mark (cs.flatMap (backslashed mark) ++ mark :: following) := by
        simp [readLiteral]
    _ = Reading.prepend cs (readBackslashed mark (mark :: following)) :=
        readBackslashed_flatMap hmark cs _
    _ = some (cs, following) := by
        rw [readBackslashed_mark, Reading.prepend_some, List.append_nil]

end Backslashes

/-! ### Doubled marks -/

lemma readDoubled_cons {c : Char} (hc : c ≠ '"') (rest : List Char) :
    readDoubled (c :: rest) = Reading.cons c (readDoubled rest) := by
  rw [readDoubled]
  · exact fun _ h => absurd h hc
  · exact hc

/-- A character of the text is read as it was, whether or not it is written twice. -/
lemma readDoubled_doubledMark (c : Char) (rest : List Char) :
    readDoubled (doubledMark c ++ rest) = Reading.cons c (readDoubled rest) := by
  rw [doubledMark]
  by_cases hc : c = '"'
  · rw [if_pos hc, hc]
    rfl
  · rw [if_neg hc, List.singleton_append, readDoubled_cons hc]

/-- What has its marks written twice is read as it was, and then what follows. -/
lemma readDoubled_flatMap (cs rest : List Char) :
    readDoubled (cs.flatMap doubledMark ++ rest) = Reading.prepend cs (readDoubled rest) := by
  induction cs with
  | nil => rw [List.flatMap_nil, List.nil_append, Reading.prepend_nil]
  | cons c cs ih =>
      rw [List.flatMap_cons, List.append_assoc, readDoubled_doubledMark, ih, Reading.cons_prepend]

/-- A mark ends the literal exactly if no other mark follows. -/
lemma readDoubled_mark_iff (rest : List Char) :
    readDoubled ('"' :: rest) = some ([], rest) ↔ rest.head? ≠ some '"' := by
  cases rest with
  | nil => simp [readDoubled]
  | cons c rest =>
      by_cases hc : c = '"'
      · -- two marks stand for one, so something was read
        subst hc
        cases hrest : readDoubled rest <;> simp [readDoubled, Reading.cons, hrest]
      · rw [readDoubled]
        · simpa using hc
        · intro rest' h
          exact absurd (List.cons.inj h).1 hc

/-- A text between marks is read as it was and no further, unless one more mark follows. -/
lemma readLiteral_doubled_iff (cs following : List Char) :
    readLiteral '"' readDoubled ('"' :: cs.flatMap doubledMark ++ ['"'] ++ following)
        = some (cs, following) ↔ following.head? ≠ some '"' := by
  have hread : readLiteral '"' readDoubled
      ('"' :: cs.flatMap doubledMark ++ ['"'] ++ following)
        = Reading.prepend cs (readDoubled ('"' :: following)) := by
    rw [← readDoubled_flatMap]
    simp [readLiteral]
  rw [hread, ← readDoubled_mark_iff]
  cases readDoubled ('"' :: following) with
  | none => simp [Reading.prepend]
  | some r => simp [Reading.prepend, Prod.ext_iff]

/-! ### Literals that are given -/

/-- The text is a mark, an inside without marks, and a mark. -/
def IsMarkedOnce (s : String) (inside : List Char) : Prop :=
  s.toList = '"' :: inside ++ ['"'] ∧ '"' ∉ inside

lemma isQuotedOnce_iff {s : String} :
    isQuotedOnce s.toList = true ↔ ∃ inside, IsMarkedOnce s inside := by
  rw [isQuotedOnce.eq_def]
  constructor
  · intro h
    split at h
    · next rest hs =>
        obtain ⟨hlast, hfree⟩ := Bool.and_eq_true_iff.mp h
        refine ⟨rest.dropLast, ?_, by simpa using hfree⟩
        rw [hs, List.cons_append, List.dropLast_append_getLast? _ (by simpa using hlast)]
    · exact absurd h (by simp)
  · rintro ⟨inside, hs, hfree⟩
    rw [hs]
    simp [hfree]

/-- A text without marks has none to be written twice. -/
lemma flatMap_doubledMark {cs : List Char} (h : '"' ∉ cs) : cs.flatMap doubledMark = cs := by
  induction cs with
  | nil => rfl
  | cons c cs ih =>
      obtain ⟨hc, hcs⟩ := List.ne_and_not_mem_of_not_mem_cons h
      rw [List.flatMap_cons, ih hcs, doubledMark, if_neg (Ne.symm hc), List.singleton_append]

/-- A string that is a literal already is written as it is. -/
lemma brightScript_of_isMarkedOnce {s : String} {inside : List Char} (h : IsMarkedOnce s inside) :
    (Json.str s).brightScript = s := by
  have hquoted : isQuotedOnce s.toList = true := isQuotedOnce_iff.mpr ⟨inside, h⟩
  show (if isQuotedOnce s.toList then s else inDoubledMarks s) = s
  rw [if_pos hquoted]

/-- Every other string is put between marks. -/
lemma brightScript_of_not_isMarkedOnce {s : String} (h : ∀ inside, ¬ IsMarkedOnce s inside) :
    (Json.str s).brightScript = inDoubledMarks s := by
  have hquoted : ¬ isQuotedOnce s.toList = true := fun hs =>
    (isQuotedOnce_iff.mp hs).elim h
  show (if isQuotedOnce s.toList then s else inDoubledMarks s) = inDoubledMarks s
  rw [if_neg hquoted]

/-! ### Colours as literals -/

/-- A digit is no mark. -/
lemma upperHexDigit_ne_mark {n : Nat} (h : n < 16) : Text.upperHexDigit n ≠ '"' := by
  have hall : ∀ d : Fin 16, Text.upperHexDigit d ≠ '"' := by decide
  exact hall ⟨n, h⟩

/-- There is no mark among the digits of a colour. -/
lemma mark_not_mem_rgbaHex (c : Color) : '"' ∉ c.rgbaHex.toList := by
  have hpair : ∀ channel, '"' ∉ Color.hexPair channel := by
    intro channel hmem
    have hle := Color.clamp_le channel
    rcases List.mem_pair.mp hmem with h | h
    · exact upperHexDigit_ne_mark (by omega) h.symm
    · exact upperHexDigit_ne_mark (by omega) h.symm
  rw [Color.rgbaHex, Color.hexOf, String.toList_ofList, List.mem_flatMap]
  rintro ⟨channel, -, hmem⟩
  exact hpair channel hmem

/-- What the transform of colours gives is a literal already. -/
lemma exists_isMarkedOnce_of_rokuHex {v w : Json} (h : Transform.rokuHex.newValue v = .ok w) :
    ∃ s inside, w = .str s ∧ IsMarkedOnce s inside := by
  obtain ⟨c, -, h⟩ := exists_of_bind_eq_ok h
  obtain rfl := Except.ok.inj h
  refine ⟨_, '0' :: 'x' :: c.rgbaHex.toList, rfl, by simp, ?_⟩
  simpa using mark_not_mem_rgbaHex c

/-- **No text breaks out of its literal.** Between double marks and between single marks, every text
is read back as it was, and reading stops at the last character of the literal, whatever follows. A
string with marks written twice is read back likewise, exactly if no further mark follows; only a
string that is such a literal already is written as it is, and stands for what is between its marks.
The transform of colours gives literals of this kind alone. -/
theorem literals_read_back :
    (∀ s following,
      readLiteral '"' (readBackslashed '"') ((inDoubleMarks s).toList ++ following)
          = some (s.toList, following) ∧
        readLiteral '\'' (readBackslashed '\'') ((inSingleMarks s).toList ++ following)
          = some (s.toList, following)) ∧
    (∀ s, (∀ inside, ¬ IsMarkedOnce s inside) → ∀ following,
      readLiteral '"' readDoubled ((Json.str s).brightScript.toList ++ following)
          = some (s.toList, following) ↔ following.head? ≠ some '"') ∧
    (∀ s inside, IsMarkedOnce s inside → (Json.str s).brightScript = s ∧ ∀ following,
      readLiteral '"' readDoubled (s.toList ++ following) = some (inside, following) ↔
        following.head? ≠ some '"') ∧
    ∀ v w, Transform.rokuHex.newValue v = .ok w →
      ∃ s inside, w = .str s ∧ IsMarkedOnce s inside := by
  refine ⟨fun s following => ⟨?_, ?_⟩, fun s hs following => ?_, fun s inside hs => ?_,
    fun v w => exists_isMarkedOnce_of_rokuHex⟩
  · rw [inDoubleMarks, String.toList_ofList]
    exact readLiteral_backslashed (by decide) s.toList following
  · rw [inSingleMarks, String.toList_ofList]
    exact readLiteral_backslashed (by decide) s.toList following
  · rw [brightScript_of_not_isMarkedOnce hs, inDoubledMarks, String.toList_ofList]
    exact readLiteral_doubled_iff s.toList following
  · refine ⟨brightScript_of_isMarkedOnce hs, fun following => ?_⟩
    obtain ⟨htext, hfree⟩ := hs
    have hread := readLiteral_doubled_iff inside following
    rwa [flatMap_doubledMark hfree, ← htext] at hread

/-- A text of a backslash and marks, with an assignment behind its literal, and a string that begins
with a mark but does not end with one. -/
theorem literals_read_back_marks :
    readLiteral '\'' (readBackslashed '\'') ((inSingleMarks "it's \\").toList ++ "';".toList)
        = some ("it's \\".toList, "';".toList) ∧
      (∀ inside, ¬ IsMarkedOnce "\"a" inside) ∧
      readLiteral '"' readDoubled ((Json.str "\"a").brightScript.toList ++ ['\n'])
        = some ("\"a".toList, ['\n']) ∧
      IsMarkedOnce "\"a\"" ['a'] ∧ (Json.str "\"a\"").brightScript = "\"a\"" := by
  obtain ⟨hescaped, hstring, hgiven, -⟩ := literals_read_back
  have hopen : ∀ inside, ¬ IsMarkedOnce "\"a" inside := by
    rintro inside ⟨htext, -⟩
    have hlast := congrArg List.getLast? htext
    rw [List.getLast?_concat] at hlast
    exact absurd hlast (by decide)
  have hmarked : IsMarkedOnce "\"a\"" ['a'] := ⟨by decide, by decide⟩
  exact ⟨(hescaped _ _).2, hopen, (hstring _ hopen _).mpr (by decide), hmarked,
    (hgiven _ _ hmarked).1⟩

end Output

end StyleTokens
