import Mathlib.Data.List.TakeWhile
import StyleTokens.Proofs.ColorChecks

/-!
The functional form of colours as a grammar.

* `Numeral.Writes`: the texts of a numeral; `Numeral.read?_eq_some` and `Numeral.read?_append`: such
  a text is read from the front of any text that does not go on with it, and nothing else is;
* `Color.WritesArgument`: a numeral between white space, with the same two lemmas;
* `Color.IsFunctionName`: the names `rgb` and `rgba` in either case;
* `Color.IsFunction`: a name and its arguments;
* `Color.functionForm?_eq_some_iff`: the reader of the functional form reads exactly this grammar, and
  finds the numerals that are written there; `Color.read_of_functionForm?_eq_some`: what is read then.
-/

namespace StyleTokens

/-! ### Decimal digits -/

/-- A decimal digit is not white space. -/
lemma Text.isBlank_of_isDecimal {c : Char} (h : Text.isDecimal c = true) :
    Text.isBlank c = false := by
  -- no run of digits overlaps with a run of white space
  have hruns : ∀ start ∈ Text.digitZeros, 0x3000 < start ∨ (0x205F < start ∧ start + 10 < 0x3000) ∨
      (0x1680 < start ∧ start + 10 < 0x2000) ∨ (0xA0 < start ∧ start + 10 < 0x1680) := by
    decide
  obtain ⟨d, hd⟩ := Option.isSome_iff_exists.mp h
  have hnumber : (0x30 ≤ c.toNat ∧ c.toNat ≤ 0x39) ∨ 0x3000 < c.toNat ∨
      (0x205F < c.toNat ∧ c.toNat < 0x3000) ∨ (0x1680 < c.toNat ∧ c.toNat < 0x2000) ∨
      (0xA0 < c.toNat ∧ c.toNat < 0x1680) := by
    rw [Text.decimalValue?, Text.asciiDigit?] at hd
    split at hd
    · split at hd
      · exact .inl ‹_›
      · cases hd
    · obtain ⟨start, hfind, -⟩ := Option.map_eq_some_iff.mp hd
      have hin := List.find?_some hfind
      simp only [Bool.and_eq_true, decide_eq_true_eq] at hin
      have hrun := hruns start (List.mem_of_find?_eq_some hfind)
      omega
  simp only [Text.isBlank, Bool.or_eq_false_iff, Bool.and_eq_false_iff, decide_eq_false_iff_not,
    beq_eq_false_iff_ne]
  omega

/-! ### Numerals -/

namespace Numeral

variable {x : Numeral} {cs text rest : List Char}

/-- The text writes the numeral: digits, or digits with a point among them or at one end. -/
inductive Writes : Numeral → List Char → Prop
  | whole {digits : List Char} (hdigits : ∀ c ∈ digits, Text.isDecimal c = true)
      (hne : digits ≠ []) : Writes ⟨digits, []⟩ digits
  | point {digits fraction : List Char} (hdigits : ∀ c ∈ digits, Text.isDecimal c = true)
      (hfraction : ∀ c ∈ fraction, Text.isDecimal c = true)
      (hne : ¬ (digits = [] ∧ fraction = [])) :
      Writes ⟨digits, fraction⟩ (digits ++ '.' :: fraction)

/-- What follows does not go on with a numeral. -/
def EndsNumeral (rest : List Char) : Prop :=
  ∀ c ∈ rest.head?, Text.isDecimal c = false ∧ c ≠ '.'

/-- The digits at the front of a text are read up to the first character that is none. -/
lemma spanDigits_decimals {digits : List Char} (hdigits : ∀ c ∈ digits, Text.isDecimal c = true)
    (hrest : ∀ c ∈ rest.head?, Text.isDecimal c = false) :
    spanDigits (digits ++ rest) = (digits, rest) := by
  have hstop : rest.takeWhile Text.isDecimal = [] ∧ rest.dropWhile Text.isDecimal = rest := by
    cases rest with
    | nil => exact ⟨rfl, rfl⟩
    | cons c rest =>
        have hc : ¬ Text.isDecimal c = true := by simp [hrest c rfl]
        exact ⟨List.takeWhile_cons_of_neg hc, List.dropWhile_cons_of_neg hc⟩
  rw [spanDigits, List.takeWhile_append_of_pos hdigits, List.dropWhile_append_of_pos hdigits,
    hstop.1, hstop.2, List.append_nil]

/-- A text of a numeral is read, whatever follows that does not go on with it. -/
lemma read?_append (h : x.Writes text) (hrest : EndsNumeral rest) :
    read? (text ++ rest) = some (x, rest) := by
  have hdecimal : ∀ c ∈ rest.head?, Text.isDecimal c = false := fun c hc => (hrest c hc).1
  cases h with
  | whole hdigits hne =>
      rw [read?, spanDigits_decimals hdigits hdecimal]
      dsimp only
      split
      · next afterPoint => exact absurd rfl (hrest '.' rfl).2
      · exact if_neg hne
  | point hdigits hfraction hne =>
      have hpoint : ∀ tail : List Char, ∀ c ∈ ('.' :: tail).head?, Text.isDecimal c = false := by
        rintro tail c ⟨⟩
        rfl
      rw [read?, List.append_assoc, List.cons_append, spanDigits_decimals hdigits (hpoint _)]
      simp only [spanDigits_decimals hfraction hdecimal]
      exact if_neg hne

/-- What is read is a text of a numeral. -/
lemma read?_eq_some (h : read? cs = some (x, rest)) :
    ∃ text, cs = text ++ rest ∧ x.Writes text := by
  have hspan : ∀ l : List Char, (∀ c ∈ l.takeWhile Text.isDecimal, Text.isDecimal c = true) ∧
      l.takeWhile Text.isDecimal ++ l.dropWhile Text.isDecimal = l :=
    fun l => ⟨fun c hc => List.mem_takeWhile_imp hc, List.takeWhile_append_dropWhile⟩
  obtain ⟨hdigits, hcs⟩ := hspan cs
  rw [read?, spanDigits] at h
  dsimp only at h
  split at h
  · next afterPoint hafter =>
      obtain ⟨hfraction, hafterPoint⟩ := hspan afterPoint
      rw [spanDigits] at h
      dsimp only at h
      split at h
      · cases h
      · next hne =>
          cases h
          refine ⟨_, ?_, .point hdigits hfraction hne⟩
          rw [List.append_assoc, List.cons_append, hafterPoint, ← hafter, hcs]
  · split at h
    · cases h
    · next hne =>
        cases h
        exact ⟨_, hcs.symm, .whole hdigits hne⟩

/-- The text of a numeral begins with a digit or a point. -/
lemma Writes.head (h : x.Writes text) :
    ∃ c tail, text = c :: tail ∧ (Text.isDecimal c = true ∨ c = '.') := by
  have hfront : ∀ digits tail : List Char, (∀ c ∈ digits, Text.isDecimal c = true) →
      digits ≠ [] → ∃ c rest, digits ++ tail = c :: rest ∧ (Text.isDecimal c = true ∨ c = '.') := by
    intro digits tail hdigits hne
    obtain ⟨c, cs, rfl⟩ := List.exists_cons_of_ne_nil hne
    exact ⟨c, cs ++ tail, rfl, .inl (hdigits c (by simp))⟩
  cases h with
  | whole hdigits hne => simpa using hfront _ [] hdigits hne
  | @point digits fraction hdigits hfraction hne =>
      by_cases hempty : digits = []
      · exact ⟨'.', fraction, by rw [hempty]; rfl, .inr rfl⟩
      · exact hfront _ _ hdigits hempty

end Numeral

namespace Color

/-! ### Arguments -/

section Arguments

variable {x : Numeral} {cs text rest : List Char}

/-- The text is the numeral between white space. -/
def WritesArgument (x : Numeral) (text : List Char) : Prop :=
  ∃ front numeral back, text = front ++ numeral ++ back ∧ x.Writes numeral ∧
    (∀ c ∈ front, Text.isBlank c = true) ∧ ∀ c ∈ back, Text.isBlank c = true

/-- What follows does not go on with an argument. -/
def EndsArgument (rest : List Char) : Prop :=
  ∀ c ∈ rest.head?, Text.isBlank c = false ∧ Text.isDecimal c = false ∧ c ≠ '.'

lemma endsArgument_cons {c : Char}
    (h : Text.isBlank c = false ∧ Text.isDecimal c = false ∧ c ≠ '.') :
    EndsArgument (c :: rest) := by
  rintro d ⟨⟩
  exact h

/-- White space is skipped up to the first character that is none. -/
lemma skipBlank_append {blanks : List Char} (hblanks : ∀ c ∈ blanks, Text.isBlank c = true)
    (hrest : ∀ c ∈ rest.head?, Text.isBlank c = false) : skipBlank (blanks ++ rest) = rest := by
  rw [skipBlank, List.dropWhile_append_of_pos hblanks]
  cases rest with
  | nil => rfl
  | cons c rest => exact List.dropWhile_cons_of_neg (by simp [hrest c rfl])

/-- An argument is read, whatever follows that does not go on with it. -/
lemma readArgument?_append (h : WritesArgument x text) (hrest : EndsArgument rest) :
    readArgument? (text ++ rest) = some (x, rest) := by
  obtain ⟨front, numeral, back, rfl, hnumeral, hfront, hback⟩ := h
  have hends : Numeral.EndsNumeral (back ++ rest) := by
    intro c hc
    cases back with
    | nil => exact (hrest c hc).2
    | cons b back =>
        obtain rfl : b = c := Option.some.inj hc
        have hb := hback b (by simp)
        constructor
        · by_contra hdecimal
          rw [Text.isBlank_of_isDecimal (by simpa using hdecimal)] at hb
          cases hb
        · rintro rfl
          exact absurd hb (by decide)
  have hskip : skipBlank (front ++ numeral ++ back ++ rest) = numeral ++ (back ++ rest) := by
    rw [List.append_assoc, List.append_assoc]
    refine skipBlank_append hfront ?_
    obtain ⟨c, tail, rfl, hc⟩ := hnumeral.head
    rintro d ⟨⟩
    rcases hc with hdecimal | rfl
    · exact Text.isBlank_of_isDecimal hdecimal
    · rfl
  rw [readArgument?, hskip, Numeral.read?_append hnumeral hends]
  change some (x, skipBlank (back ++ rest)) = _
  rw [skipBlank_append hback fun c hc => (hrest c hc).1]

/-- What is read is an argument. -/
lemma readArgument?_eq_some (h : readArgument? cs = some (x, rest)) :
    ∃ text, cs = text ++ rest ∧ WritesArgument x text := by
  obtain ⟨⟨y, afterNumeral⟩, hread, h⟩ := Option.bind_eq_some_iff.mp h
  obtain ⟨numeral, hnumeral, hwrites⟩ := Numeral.read?_eq_some hread
  cases h
  refine ⟨cs.takeWhile Text.isBlank ++ numeral ++ afterNumeral.takeWhile Text.isBlank, ?_,
    _, numeral, _, rfl, hwrites, fun c hc => List.mem_takeWhile_imp hc,
    fun c hc => List.mem_takeWhile_imp hc⟩
  calc cs = cs.takeWhile Text.isBlank ++ skipBlank cs := List.takeWhile_append_dropWhile.symm
    _ = cs.takeWhile Text.isBlank ++ (numeral ++ afterNumeral) := by rw [hnumeral]
    _ = cs.takeWhile Text.isBlank ++ (numeral ++ (afterNumeral.takeWhile Text.isBlank ++
          skipBlank afterNumeral)) := by rw [skipBlank, List.takeWhile_append_dropWhile]
    _ = _ := by simp only [List.append_assoc]

/-- What is read behind a comma is an argument. -/
lemma readNextArgument?_eq_some (h : readNextArgument? cs = some (x, rest)) :
    ∃ text, cs = ',' :: (text ++ rest) ∧ WritesArgument x text := by
  rw [readNextArgument?.eq_def] at h
  split at h
  · obtain ⟨text, rfl, htext⟩ := readArgument?_eq_some h
    exact ⟨text, rfl, htext⟩
  · cases h

end Arguments

/-! ### The name of the function -/

/-- The name is `rgb` or `rgba`, in either case. -/
def IsFunctionName (name : List Char) : Prop :=
  name.map Char.toLower = "rgb".toList ∨ name.map Char.toLower = "rgba".toList

/-- A character that is no lower case letter becomes only from itself in lower case. -/
lemma eq_of_toLower_eq {c d : Char} (hd : ¬ (97 ≤ d.toNat ∧ d.toNat ≤ 122)) (h : c.toLower = d) :
    c = d := by
  have hnumber := congrArg Char.toNat h
  rw [toNat_toLower] at hnumber
  refine Char.toNat_inj.mp ?_
  split at hnumber
  · omega
  · exact hnumber

/-- The name and its parenthesis are taken off. -/
lemma afterFunctionName?_append {name : List Char} (h : IsFunctionName name) (rest : List Char) :
    afterFunctionName? (name ++ '(' :: rest) = some rest := by
  have htake : ∀ n, name.length = n → (name ++ '(' :: rest).drop (n + 1) = rest := by
    rintro n rfl
    rw [List.drop_append, List.drop_eq_nil_of_le (by omega), Nat.add_sub_cancel_left]
    rfl
  rw [afterFunctionName?, List.map_append]
  rcases h with hname | hname
  · rw [hname]
    exact congrArg some (htake 3 (by simpa using congrArg List.length hname))
  · rw [hname]
    exact congrArg some (htake 4 (by simpa using congrArg List.length hname))

/-- What is taken off is a name and its parenthesis. -/
lemma afterFunctionName?_eq_some {cs rest : List Char} (h : afterFunctionName? cs = some rest) :
    ∃ name, cs = name ++ '(' :: rest ∧ IsFunctionName name := by
  rw [afterFunctionName?] at h
  split at h
  · next hlower =>
      cases h
      simp only [List.map_eq_cons_iff] at hlower
      obtain ⟨r, _, rfl, hr, g, _, rfl, hg, b, _, rfl, hb, a, _, rfl, ha, p, _, rfl, hp, -⟩ :=
        hlower
      obtain rfl := eq_of_toLower_eq (by decide) hp
      exact ⟨[r, g, b, a], rfl, .inr (by simp [hr, hg, hb, ha])⟩
  · next hlower =>
      cases h
      simp only [List.map_eq_cons_iff] at hlower
      obtain ⟨r, _, rfl, hr, g, _, rfl, hg, b, _, rfl, hb, p, _, rfl, hp, -⟩ := hlower
      obtain rfl := eq_of_toLower_eq (by decide) hp
      exact ⟨[r, g, b], rfl, .inl (by simp [hr, hg, hb])⟩
  · cases h

/-! ### The whole form -/

/-- The text is a colour in functional form: a name, and three or four arguments with commas between
them in parentheses. -/
inductive IsFunction : List Char → Numeral → Numeral → Numeral → Option Numeral → Prop
  | three {name red green blue : List Char} {r g b : Numeral} (hname : IsFunctionName name)
      (hr : WritesArgument r red) (hg : WritesArgument g green) (hb : WritesArgument b blue) :
      IsFunction (name ++ '(' :: (red ++ ',' :: (green ++ ',' :: (blue ++ [')'])))) r g b none
  | four {name red green blue alpha : List Char} {r g b a : Numeral} (hname : IsFunctionName name)
      (hr : WritesArgument r red) (hg : WritesArgument g green) (hb : WritesArgument b blue)
      (ha : WritesArgument a alpha) :
      IsFunction (name ++ '(' :: (red ++ ',' :: (green ++ ',' :: (blue ++ ',' :: (alpha ++ [')'])))))
        r g b (some a)

section Form

variable {cs : List Char} {r g b : Numeral} {a : Option Numeral}

lemma endsArgument_comma (rest : List Char) : EndsArgument (',' :: rest) :=
  endsArgument_cons (by decide)

lemma endsArgument_close : EndsArgument [')'] := endsArgument_cons (by decide)

/-- A colour in functional form is read as one. -/
lemma functionForm?_of_isFunction (h : IsFunction cs r g b a) :
    functionForm? cs = some (r, g, b, a) := by
  cases h with
  | three hname hr hg hb =>
      rw [functionForm?, afterFunctionName?_append hname]
      simp only [Option.bind_eq_bind, Option.bind_some, readNextArgument?,
        readArgument?_append hr (endsArgument_comma _),
        readArgument?_append hg (endsArgument_comma _), readArgument?_append hb endsArgument_close]
      rfl
  | four hname hr hg hb ha =>
      rw [functionForm?, afterFunctionName?_append hname]
      simp only [Option.bind_eq_bind, Option.bind_some, readNextArgument?,
        readArgument?_append hr (endsArgument_comma _),
        readArgument?_append hg (endsArgument_comma _),
        readArgument?_append hb (endsArgument_comma _), readArgument?_append ha endsArgument_close]
      rfl

/-- What is read is a colour in functional form. -/
lemma isFunction_of_functionForm? (h : functionForm? cs = some (r, g, b, a)) :
    IsFunction cs r g b a := by
  obtain ⟨afterName, hafterName, h⟩ := Option.bind_eq_some_iff.mp h
  obtain ⟨⟨r', afterRed⟩, hafterRed, h⟩ := Option.bind_eq_some_iff.mp h
  obtain ⟨⟨g', afterGreen⟩, hafterGreen, h⟩ := Option.bind_eq_some_iff.mp h
  obtain ⟨⟨b', afterBlue⟩, hafterBlue, h⟩ := Option.bind_eq_some_iff.mp h
  obtain ⟨name, hcs, hname⟩ := afterFunctionName?_eq_some hafterName
  obtain ⟨red, hred, hr⟩ := readArgument?_eq_some hafterRed
  obtain ⟨green, hgreen, hg⟩ := readNextArgument?_eq_some hafterGreen
  obtain ⟨blue, hblue, hb⟩ := readNextArgument?_eq_some hafterBlue
  rw [hcs, hred, hgreen, hblue]
  dsimp only at h
  split at h
  · cases h
    exact .three hname hr hg hb
  · obtain ⟨⟨a', afterAlpha⟩, hafterAlpha, h⟩ := Option.bind_eq_some_iff.mp h
    obtain ⟨alpha, halpha, ha⟩ := readNextArgument?_eq_some hafterAlpha
    rw [halpha]
    dsimp only at h
    split at h
    · cases h
      exact .four hname hr hg hb ha
    · cases h

/-- **The reader of the functional form reads exactly its grammar**, and finds the numerals that are
written there. -/
theorem functionForm?_eq_some_iff :
    functionForm? cs = some (r, g, b, a) ↔ IsFunction cs r g b a :=
  ⟨isFunction_of_functionForm?, functionForm?_of_isFunction⟩

/-- A text in which the reader finds nothing has no functional form. -/
lemma functionForm?_eq_none_iff :
    functionForm? cs = none ↔ ¬ ∃ r g b a, IsFunction cs r g b a := by
  rw [Option.eq_none_iff_forall_ne_some]
  constructor
  · rintro h ⟨r, g, b, a, hform⟩
    exact h _ (functionForm?_of_isFunction hform)
  · rintro h ⟨r, g, b, a⟩ hread
    exact h ⟨r, g, b, a, isFunction_of_functionForm? hread⟩

/-- A literal in functional form is the colour of its arguments. -/
lemma read_of_functionForm?_eq_some {s : String}
    (h : functionForm? (core s.toList) = some (r, g, b, a)) :
    read (.str s) = ofFunction (String.ofList (core s.toList)) r g b a := by
  rw [read, readChars, h]

end Form

end Color

end StyleTokens
