import StyleTokens.Proofs.FunctionForm
import StyleTokens.Token.Transform

/-!
Numbers in front of units.

* `NumberLiteral`, `NumberLiteral.Writes`: a numeral with a sign and an exponent, and its texts;
* `BeginsExponent`, `EndsLiteral`: what goes on with a literal, and what does not;
* `spanSign_append`, `readExponent_append`, `readLeadingNumber?_append`: a literal is read behind
  white space, whatever follows that does not go on with it;
* `exists_sign`, `exists_exponent`, `exists_of_readLeadingNumber?`: nothing but a literal is read;
* `readLeadingNumber?_eq_none_iff`: nothing is read exactly if no literal stands in front;
* `leadingNumber_unaffected`: so units do not leak into numbers.
-/

namespace StyleTokens

open Text (isBlank isDecimal)

/-! ### Literals -/

/-- A numeral with a sign and a power of ten. -/
structure NumberLiteral where
  negative : Bool
  numeral : Numeral
  exponent : Int

/-- The text is a sign, or empty. -/
inductive WritesSign : Bool → List Char → Prop
  | absent : WritesSign false []
  | plus : WritesSign false ['+']
  | minus : WritesSign true ['-']

/-- The text is an exponent, or empty: a mark, digits, and perhaps a sign between them. -/
inductive WritesExponent : Int → List Char → Prop
  | absent : WritesExponent 0 []
  | digits {mark : Char} {negative : Bool} {sign digits : List Char} (hmark : mark = 'e' ∨ mark = 'E')
      (hsign : WritesSign negative sign) (hdigits : ∀ c ∈ digits, isDecimal c = true)
      (hne : digits ≠ []) :
      WritesExponent (if negative then -(Numeral.digitsValue digits : Int)
        else Numeral.digitsValue digits) (mark :: (sign ++ digits))

namespace NumberLiteral

/-- The number nearest to the literal. -/
def value (x : NumberLiteral) : Binary64 := x.numeral.scaled x.negative x.exponent

/-- The text writes the literal: a sign, a numeral and an exponent. -/
def Writes (x : NumberLiteral) (text : List Char) : Prop :=
  ∃ sign numeral exponent, text = sign ++ (numeral ++ exponent) ∧ WritesSign x.negative sign ∧
    x.numeral.Writes numeral ∧ WritesExponent x.exponent exponent

end NumberLiteral

/-- The text begins with an exponent: a mark and a digit, and perhaps a sign between them. -/
def BeginsExponent (cs : List Char) : Prop :=
  ∃ mark negative sign digit rest, cs = mark :: (sign ++ digit :: rest) ∧
    (mark = 'e' ∨ mark = 'E') ∧ WritesSign negative sign ∧ isDecimal digit = true

/-- What follows does not go on with a literal: it begins with no digit, no point and no exponent. -/
structure EndsLiteral (rest : List Char) : Prop where
  numeral : Numeral.EndsNumeral rest
  exponent : ¬ BeginsExponent rest

/-! ### Signs -/

section Signs

variable {cs rest sign : List Char} {negative : Bool}

/-- A sign is read, whatever follows that does not begin with one more. -/
lemma spanSign_append (h : WritesSign negative sign)
    (hrest : ∀ c ∈ rest.head?, c ≠ '+' ∧ c ≠ '-') : spanSign (sign ++ rest) = (negative, rest) := by
  cases h with
  | plus => rfl
  | minus => rfl
  | absent =>
      rw [List.nil_append, spanSign.eq_def]
      split
      · exact absurd rfl (hrest '-' rfl).2
      · exact absurd rfl (hrest '+' rfl).1
      · rfl

/-- Nothing but a sign is read. -/
lemma exists_sign (cs : List Char) :
    ∃ sign, cs = sign ++ (spanSign cs).2 ∧ WritesSign (spanSign cs).1 sign := by
  rw [spanSign.eq_def]
  split
  · exact ⟨['-'], rfl, .minus⟩
  · exact ⟨['+'], rfl, .plus⟩
  · exact ⟨[], rfl, .absent⟩

/-- A digit is no sign. -/
lemma ne_sign_of_isDecimal {c : Char} (h : isDecimal c = true) : c ≠ '+' ∧ c ≠ '-' := by
  constructor <;> rintro rfl <;> exact absurd h (by decide)

/-- A sign is neither white space nor a digit nor a point. -/
lemma WritesSign.isBlank_eq_false (h : WritesSign negative sign) : ∀ c ∈ sign, isBlank c = false := by
  intro c hc
  cases h with
  | absent => cases hc
  | plus =>
      obtain rfl := List.mem_singleton.mp hc
      decide
  | minus =>
      obtain rfl := List.mem_singleton.mp hc
      decide

end Signs

/-! ### Exponents -/

section Exponents

variable {cs rest text : List Char} {n : Int}

/-- Behind a mark, digits make an exponent, with the sign in front of them. -/
lemma readExponent_mark {mark : Char} (hmark : mark = 'e' ∨ mark = 'E') (tail : List Char) :
    readExponent (mark :: tail)
      = if (Numeral.spanDigits (spanSign tail).2).1 = [] then (0, mark :: tail)
        else (if (spanSign tail).1 then
            -(Numeral.digitsValue (Numeral.spanDigits (spanSign tail).2).1 : Int)
          else Numeral.digitsValue (Numeral.spanDigits (spanSign tail).2).1,
          (Numeral.spanDigits (spanSign tail).2).2) :=
  if_pos hmark

/-- Where no exponent begins, none is read. -/
lemma readExponent_of_not_begins (h : ¬ BeginsExponent cs) : readExponent cs = (0, cs) := by
  cases cs with
  | nil => rfl
  | cons mark tail =>
      by_cases hmark : mark = 'e' ∨ mark = 'E'
      · obtain ⟨sign, htail, hsign⟩ := exists_sign tail
        rw [readExponent_mark hmark]
        refine if_pos ?_
        -- digits behind the mark and the sign would make an exponent
        by_contra hdigits
        obtain ⟨digit, digits, hcons⟩ := List.exists_cons_of_ne_nil hdigits
        have hunsigned : (spanSign tail).2
            = digit :: (digits ++ (spanSign tail).2.dropWhile isDecimal) := by
          rw [← List.cons_append, ← hcons]
          exact List.takeWhile_append_dropWhile.symm
        have hdigit : isDecimal digit = true :=
          List.mem_takeWhile_imp (hcons ▸ List.mem_cons_self (a := digit) (l := digits))
        rw [hunsigned] at htail
        exact h ⟨mark, _, sign, digit, _, congrArg (mark :: ·) htail, hmark, hsign, hdigit⟩
      · exact if_neg hmark

/-- An exponent is read, whatever follows that does not go on with a literal. -/
lemma readExponent_append (h : WritesExponent n text) (hrest : EndsLiteral rest) :
    readExponent (text ++ rest) = (n, rest) := by
  cases h with
  | absent => exact readExponent_of_not_begins hrest.exponent
  | @digits mark negative sign digits hmark hsign hdigits hne =>
      have hsigned : spanSign (sign ++ digits ++ rest) = (negative, digits ++ rest) := by
        rw [List.append_assoc]
        refine spanSign_append hsign ?_
        obtain ⟨digit, digits, rfl⟩ := List.exists_cons_of_ne_nil hne
        rintro c ⟨⟩
        exact ne_sign_of_isDecimal (hdigits digit (by simp))
      rw [List.cons_append, readExponent_mark hmark, hsigned,
        Numeral.spanDigits_decimals hdigits fun c hc => (hrest.numeral c hc).1]
      exact if_neg hne

/-- An exponent does not go on with a numeral in front of it. -/
lemma WritesExponent.endsNumeral (h : WritesExponent n text) (hrest : Numeral.EndsNumeral rest) :
    Numeral.EndsNumeral (text ++ rest) := by
  cases h with
  | absent => exact hrest
  | digits hmark => rcases hmark with rfl | rfl <;> rintro c ⟨⟩ <;> decide

/-- Nothing but an exponent is read. -/
lemma exists_exponent (cs : List Char) :
    ∃ text, cs = text ++ (readExponent cs).2 ∧ WritesExponent (readExponent cs).1 text := by
  by_cases h : BeginsExponent cs
  · obtain ⟨mark, negative, sign, digit, rest, rfl, hmark, hsign, hdigit⟩ := h
    have hdigits : ∀ c ∈ digit :: rest.takeWhile isDecimal, isDecimal c = true :=
      List.forall_mem_cons.mpr ⟨hdigit, fun c hc => List.mem_takeWhile_imp hc⟩
    have hspan : Numeral.spanDigits (digit :: rest)
        = (digit :: rest.takeWhile isDecimal, rest.dropWhile isDecimal) := by
      rw [Numeral.spanDigits, List.takeWhile_cons_of_pos hdigit, List.dropWhile_cons_of_pos hdigit]
    have hsigned : spanSign (sign ++ digit :: rest) = (negative, digit :: rest) := by
      refine spanSign_append hsign ?_
      rintro c ⟨⟩
      exact ne_sign_of_isDecimal hdigit
    rw [readExponent_mark hmark, hsigned, hspan, if_neg (List.cons_ne_nil _ _)]
    refine ⟨_, ?_, .digits hmark hsign hdigits (List.cons_ne_nil _ _)⟩
    simp [List.takeWhile_append_dropWhile]
  · rw [readExponent_of_not_begins h]
    exact ⟨[], rfl, .absent⟩

end Exponents

/-! ### Numerals in front -/

/-- A text that begins with a numeral has one that is read, even if it goes on with it. -/
lemma Numeral.read?_append_ne_none {x : Numeral} {text : List Char} (h : x.Writes text)
    (rest : List Char) : read? (text ++ rest) ≠ none := by
  have hfront : ∀ digits after : List Char, (∀ c ∈ digits, isDecimal c = true) → digits ≠ [] →
      (digits ++ after).takeWhile isDecimal ≠ [] := by
    intro digits after hdigits hne hnone
    rw [List.takeWhile_append_of_pos hdigits] at hnone
    exact hne (List.append_eq_nil_iff.mp hnone).1
  -- digits in front are read whatever is behind them
  have hwhole : ∀ digits after : List Char, (∀ c ∈ digits, isDecimal c = true) → digits ≠ [] →
      read? (digits ++ after) ≠ none := by
    intro digits after hdigits hne
    have hne := hfront digits after hdigits hne
    rw [read?, spanDigits]
    dsimp only
    split
    · rw [spanDigits, if_neg fun hnone => hne hnone.1]
      exact Option.some_ne_none _
    · rw [if_neg hne]
      exact Option.some_ne_none _
  cases h with
  | whole hdigits hne => exact hwhole _ _ hdigits hne
  | @point digits fraction hdigits hfraction hne =>
      by_cases hempty : digits = []
      · have hne := hfront fraction rest hfraction fun hnone => hne ⟨hempty, hnone⟩
        have hpoint : isDecimal '.' = false := by decide
        rw [hempty, List.nil_append, List.cons_append]
        simp [read?, spanDigits, hpoint, hne]
      · rw [List.append_assoc]
        exact hwhole _ _ hdigits hempty

/-- The first character of a numeral is neither white space nor a sign. -/
lemma Numeral.Writes.front {x : Numeral} {text : List Char} (h : x.Writes text) (rest : List Char) :
    ∀ c ∈ (text ++ rest).head?, isBlank c = false ∧ c ≠ '+' ∧ c ≠ '-' := by
  obtain ⟨c, tail, rfl, hc⟩ := h.head
  rintro d ⟨⟩
  rcases hc with hdecimal | rfl
  · exact ⟨Text.isBlank_of_isDecimal hdecimal, ne_sign_of_isDecimal hdecimal⟩
  · decide

/-! ### Literals in front -/

section Literals

variable {x : NumberLiteral} {cs blanks text rest : List Char}

/-- Behind a sign stands what stands behind the sign of a literal. -/
lemma spanSign_of_writes {negative : Bool} {sign numeral : List Char} {y : Numeral}
    (hsign : WritesSign negative sign) (hnumeral : y.Writes numeral) (rest : List Char) :
    spanSign (sign ++ (numeral ++ rest)) = (negative, numeral ++ rest) :=
  spanSign_append hsign fun c hc => (hnumeral.front rest c hc).2

/-- White space in front of a literal is passed over. -/
lemma dropWhile_blanks (h : x.Writes text) (hblanks : ∀ c ∈ blanks, isBlank c = true)
    (rest : List Char) : (blanks ++ (text ++ rest)).dropWhile isBlank = text ++ rest := by
  refine Color.skipBlank_append hblanks fun c hc => ?_
  obtain ⟨sign, numeral, exponent, rfl, hsign, hnumeral, -⟩ := h
  cases sign with
  | nil => exact (hnumeral.front (exponent ++ rest) c (by simpa using hc)).1
  | cons d sign =>
      obtain rfl : d = c := Option.some.inj hc
      exact hsign.isBlank_eq_false d (by simp)

/-- **A literal is read behind white space**, whatever follows that does not go on with it. -/
theorem readLeadingNumber?_append (h : x.Writes text) (hblanks : ∀ c ∈ blanks, isBlank c = true)
    (hrest : EndsLiteral rest) : readLeadingNumber? (blanks ++ (text ++ rest)) = some x.value := by
  rw [readLeadingNumber?, dropWhile_blanks h hblanks]
  obtain ⟨sign, numeral, exponent, rfl, hsign, hnumeral, hexponent⟩ := h
  rw [List.append_assoc, List.append_assoc, spanSign_of_writes hsign hnumeral]
  simp only [Numeral.read?_append hnumeral (hexponent.endsNumeral hrest.numeral),
    Option.bind_eq_bind, Option.bind_some, readExponent_append hexponent hrest]
  rfl

/-- Nothing but a literal behind white space is read. -/
lemma exists_of_readLeadingNumber? {v : Binary64} (h : readLeadingNumber? cs = some v) :
    ∃ (x : NumberLiteral) (text rest : List Char),
      cs.dropWhile isBlank = text ++ rest ∧ x.Writes text ∧ x.value = v := by
  obtain ⟨sign, hcs, hsign⟩ := exists_sign (cs.dropWhile isBlank)
  obtain ⟨⟨numeral, behind⟩, hread, hv⟩ := Option.bind_eq_some_iff.mp h
  obtain ⟨text, htext, hnumeral⟩ := Numeral.read?_eq_some hread
  obtain ⟨exponent, hbehind, hexponent⟩ := exists_exponent behind
  refine ⟨⟨_, numeral, _⟩, sign ++ (text ++ exponent), (readExponent behind).2, ?_,
    ⟨sign, text, exponent, rfl, hsign, hnumeral, hexponent⟩, Option.some.inj hv⟩
  calc cs.dropWhile isBlank
      = sign ++ (text ++ behind) := hcs.trans (congrArg (sign ++ ·) htext)
    _ = sign ++ (text ++ (exponent ++ (readExponent behind).2)) := by rw [← hbehind]
    _ = sign ++ (text ++ exponent) ++ (readExponent behind).2 := by simp only [List.append_assoc]

/-- **Nothing is read exactly if no literal stands in front**, behind white space. -/
theorem readLeadingNumber?_eq_none_iff : readLeadingNumber? cs = none ↔
    ¬ ∃ (x : NumberLiteral) (text rest : List Char),
      cs.dropWhile isBlank = text ++ rest ∧ x.Writes text := by
  constructor
  · rintro hnone ⟨x, text, rest, hcs, sign, numeral, exponent, rfl, hsign, hnumeral, -⟩
    rw [List.append_assoc, List.append_assoc] at hcs
    rw [readLeadingNumber?, hcs, spanSign_of_writes hsign hnumeral] at hnone
    obtain ⟨found, hfound⟩ :=
      Option.ne_none_iff_exists'.mp (Numeral.read?_append_ne_none hnumeral (exponent ++ rest))
    simp [hfound] at hnone
  · intro hnone
    refine Option.eq_none_iff_forall_ne_some.mpr fun v hv => hnone ?_
    obtain ⟨x, text, rest, hcs, hx, -⟩ := exists_of_readLeadingNumber? hv
    exact ⟨x, text, rest, hcs, hx⟩

end Literals

/-- **Units do not leak into numbers.** White space in front of a literal and any unit behind it that
does not go on with it make no difference for what is read, which is the number nearest to the literal;
a transform to numbers gives this number. Whatever is read is such a literal at the front of the text,
behind white space, and nothing is read exactly if there is none, so that the text stays. -/
theorem leadingNumber_unaffected :
    (∀ (x : NumberLiteral) (blanks text unit : List Char), x.Writes text →
      (∀ c ∈ blanks, isBlank c = true) → EndsLiteral unit →
        readLeadingNumber? (blanks ++ (text ++ unit)) = readLeadingNumber? text ∧
        readLeadingNumber? text = some x.value ∧
        Transform.leadingNumber (.str (String.ofList (blanks ++ (text ++ unit))))
          = Transform.numberValue x.value) ∧
    (∀ cs v, readLeadingNumber? cs = some v → ∃ (x : NumberLiteral) (text rest : List Char),
      cs.dropWhile isBlank = text ++ rest ∧ x.Writes text ∧ x.value = v) ∧
    ∀ cs, (readLeadingNumber? cs = none ↔ ¬ ∃ (x : NumberLiteral) (text rest : List Char),
        cs.dropWhile isBlank = text ++ rest ∧ x.Writes text) ∧
      (readLeadingNumber? cs = none →
        Transform.leadingNumber (.str (String.ofList cs)) = .str (String.ofList cs)) := by
  refine ⟨fun x blanks text unit hx hblanks hunit => ?_, fun cs v => exists_of_readLeadingNumber?,
    fun cs => ⟨readLeadingNumber?_eq_none_iff, fun hnone => ?_⟩⟩
  · have hread := readLeadingNumber?_append hx hblanks hunit
    have hends : EndsLiteral [] := ⟨by rintro c ⟨⟩, by rintro ⟨_, _, _, _, _, ⟨⟩, _⟩⟩
    have hnone : ∀ c ∈ ([] : List Char), isBlank c = true := by simp
    have hown : readLeadingNumber? text = some x.value := by
      simpa using readLeadingNumber?_append hx hnone hends
    refine ⟨hread.trans hown.symm, hown, ?_⟩
    rw [Transform.leadingNumber, String.toList_ofList, hread]
    rfl
  · rw [Transform.leadingNumber, String.toList_ofList, hnone]
    rfl

/-- A unit that begins like an exponent, and a fraction without digits before the point. -/
theorem leadingNumber_unaffected_em :
    NumberLiteral.Writes ⟨true, ⟨[], ['5']⟩, 1⟩ "-.5E+1".toList ∧
      (∀ c ∈ [' ', '\t'], isBlank c = true) ∧ EndsLiteral "em".toList ∧
      Transform.leadingNumber (.str " \t-.5E+1em") = .int (-5) := by
  have hfive : ∀ c ∈ ['5'], isDecimal c = true := List.all_eq_true.mp (by decide)
  have hexponent : WritesExponent 1 ['E', '+', '1'] :=
    .digits (.inr rfl) .plus (List.all_eq_true.mp (by decide)) (List.cons_ne_nil '1' [])
  have hwrites : NumberLiteral.Writes ⟨true, ⟨[], ['5']⟩, 1⟩ "-.5E+1".toList :=
    ⟨['-'], ['.', '5'], ['E', '+', '1'], rfl, .minus, .point (by simp) hfive (by simp),
      hexponent⟩
  have hblanks : ∀ c ∈ [' ', '\t'], isBlank c = true := List.all_eq_true.mp (by decide)
  have hends : EndsLiteral "em".toList := by
    refine ⟨by rintro c ⟨⟩; decide, ?_⟩
    rintro ⟨mark, negative, sign, digit, rest, htext, -, hsign, hdigit⟩
    cases hsign with
    | absent =>
        obtain ⟨-, rfl, -⟩ : 'e' = mark ∧ 'm' = digit ∧ [] = rest := by simpa using htext
        exact absurd hdigit (by decide)
    | plus => simp at htext
    | minus => simp at htext
  have hvalue : (NumberLiteral.value ⟨true, ⟨[], ['5']⟩, 1⟩).isWhole = true ∧
      (NumberLiteral.value ⟨true, ⟨[], ['5']⟩, 1⟩).toInt = -5 := by decide +kernel
  have hnumber := (leadingNumber_unaffected.1 _ _ _ _ hwrites hblanks hends).2.2
  refine ⟨hwrites, hblanks, hends, ?_⟩
  rwa [Transform.numberValue, if_pos hvalue.1, hvalue.2] at hnumber

end StyleTokens
