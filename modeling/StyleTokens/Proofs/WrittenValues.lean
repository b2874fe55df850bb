import Mathlib.Data.List.Nodup
import Mathlib.Data.List.TakeWhile
import StyleTokens.Proofs.WrittenStrings

/-!
Values of documents, read back.

* `Json.IsShort`: whole numbers whose digits are not too many;
* `Json.readNumber_intText`: such a whole number is read back from its digits;
* `Fields.ofPairs_eq_self`: entries with distinct keys are read as they are;
* `Json.IsBuilt`, `Json.IsRestorable`: values without floating point numbers, in whose objects no
  key comes twice, and those of them that hold no number with too many digits;
* `Json.readValue_written`: such a value is read back from its text, by induction on the value;
* `Json.read_written`: so it is from the whole text;
* `Json.isPrintable_of_mem_writtenChars`: texts of values are made of printable ASCII characters.
-/

namespace StyleTokens

/-! ### Entries with distinct keys -/

namespace Fields

/-- A value under a new key is put at the end. -/
lemma put_eq_append {key : String} {x : Json} {fields : Fields} (h : key ∉ fields.map Prod.fst) :
    put key x fields = fields ++ [(key, x)] := by
  induction fields with
  | nil => rfl
  | cons entry rest ih =>
      obtain ⟨k, y⟩ := entry
      rw [List.map_cons, List.mem_cons, not_or] at h
      rw [put, if_neg (Ne.symm h.1), ih h.2, List.cons_append]

/-- Entries with distinct new keys are put at the end in their order. -/
lemma merge_eq_append {fields later : Fields} (h : ((fields ++ later).map Prod.fst).Nodup) :
    merge fields later = fields ++ later := by
  induction later generalizing fields with
  | nil => exact (List.append_nil fields).symm
  | cons e later ih =>
      have hnew : e.1 ∉ fields.map Prod.fst := by
        intro hmem
        rw [List.map_append, List.map_cons] at h
        exact (List.nodup_append.mp h).2.2 _ hmem _ (List.mem_cons_self ..) rfl
      rw [List.append_cons] at h ⊢
      calc merge fields (e :: later)
          = merge (put e.1 e.2 fields) later := rfl
        _ = merge (fields ++ [e]) later := by rw [put_eq_append hnew]
        _ = fields ++ [e] ++ later := ih h

/-- Entries with distinct keys are read as they are. -/
lemma ofPairs_eq_self {fields : Fields} (h : (fields.map Prod.fst).Nodup) :
    ofPairs fields = fields :=
  @merge_eq_append [] fields h

end Fields

namespace Json

/-! ### Whole numbers -/

lemma isAsciiDigit_of_mem_toDigits {n : Nat} {c : Char} (h : c ∈ Nat.toDigits 10 n) :
    Text.isAsciiDigit c = true := by
  have hdigit := Nat.isDigit_of_mem_toDigits (by decide) (by decide) h
  have hrange : 0x30 ≤ c.toNat ∧ c.toNat ≤ 0x39 := by
    simpa [Char.isDigit, UInt32.le_iff_toNat_le] using hdigit
  simp [Text.isAsciiDigit, Text.asciiDigit?, hrange]

lemma ne_of_isAsciiDigit {c d : Char} (hc : Text.isAsciiDigit c = true)
    (hd : Text.isAsciiDigit d = false) : c ≠ d := by
  rintro rfl
  rw [hc] at hd
  cases hd

/-- The digits of a number write that number. -/
lemma digitsValue_toDigits (n : Nat) : digitsValue (Nat.toDigits 10 n) = n := by
  have hstep : ∀ m, ∀ c ∈ Nat.toDigits 10 n,
      m * 10 + (Text.asciiDigit? c).getD 0 = 10 * m + (c.toNat - '0'.toNat) := by
    intro m c hc
    obtain ⟨d, hd⟩ := Option.isSome_iff_exists.mp (isAsciiDigit_of_mem_toDigits hc)
    have hvalue : d = c.toNat - 0x30 := by
      rw [Text.asciiDigit?] at hd
      split at hd
      · exact (Option.some.inj hd).symm
      · cases hd
    rw [hd, Option.getD_some, hvalue, Nat.mul_comm]
    rfl
  calc digitsValue (Nat.toDigits 10 n)
      = Nat.ofDigitChars 10 (Nat.toDigits 10 n) 0 := List.foldl_ext _ _ 0 hstep
    _ = n := Nat.ofDigitChars_ten_toDigits

/-- No digits of a number begin with a zero, but those of zero. -/
lemma head?_toDigits {n : Nat} (h : n ≠ 0) : (Nat.toDigits 10 n).head? ≠ some '0' := by
  induction n using Nat.strong_induction_on with
  | _ n ih =>
      rw [Nat.toDigits_eq_if (by decide)]
      split
      · next hlt =>
          have hall : ∀ d : Fin 10, d.val ≠ 0 → [Nat.digitChar d].head? ≠ some '0' := by decide
          exact hall ⟨n, hlt⟩ h
      · rw [List.head?_append_of_ne_nil _ Nat.toDigits_ne_nil]
        exact ih (n / 10) (by omega) (by omega)

/-- Digits do not begin with a sign. -/
lemma toDigits_append_ne_minus (n : Nat) (rest tail : List Char) :
    Nat.toDigits 10 n ++ rest ≠ '-' :: tail := by
  intro htext
  have hhead : (Nat.toDigits 10 n).head? = some '-' := by
    rw [← List.head?_append_of_ne_nil _ Nat.toDigits_ne_nil, htext]
    rfl
  exact absurd (isAsciiDigit_of_mem_toDigits (List.mem_of_mem_head? hhead)) (by decide)

/-- The whole number has no more digits than are read and written. -/
def IsShort (n : Int) : Prop := (Nat.toDigits 10 n.natAbs).length ≤ digitLimit

lemma isLong_eq_false_iff {n : Int} : isLong n = false ↔ IsShort n := by
  rw [isLong, decide_eq_false_iff_not, Nat.not_lt, IsShort]

/-- Digits write their number if they are not too many. -/
lemma numberOf_toDigits {m : Nat} (h : (Nat.toDigits 10 m).length ≤ digitLimit) (negative : Bool) :
    numberOf negative (Nat.toDigits 10 m) [] none = .ok (.int (if negative then -m else m)) := by
  rw [numberOf, if_pos ⟨rfl, rfl⟩, if_neg (Nat.not_lt.mpr h), digitsValue_toDigits]

/-- What follows does not go on with a number. -/
def EndsNumber (rest : List Char) : Prop :=
  ∀ c ∈ rest.head?, Text.isAsciiDigit c = false ∧ c ≠ '.' ∧ c ≠ 'e' ∧ c ≠ 'E'

lemma endsNumber_cons {c : Char} {rest : List Char}
    (h : Text.isAsciiDigit c = false ∧ c ≠ '.' ∧ c ≠ 'e' ∧ c ≠ 'E') : EndsNumber (c :: rest) := by
  rintro d ⟨⟩
  exact h

section Numbers

variable {rest : List Char} (h : EndsNumber rest)

include h

lemma spanDigits_append {digits : List Char} (hdigits : ∀ c ∈ digits, Text.isAsciiDigit c = true) :
    spanDigits (digits ++ rest) = (digits, rest) := by
  have hstop : rest.takeWhile Text.isAsciiDigit = [] ∧ rest.dropWhile Text.isAsciiDigit = rest := by
    cases rest with
    | nil => exact ⟨rfl, rfl⟩
    | cons c rest =>
        have hc : ¬ Text.isAsciiDigit c = true := by simp [(h c rfl).1]
        exact ⟨List.takeWhile_cons_of_neg hc, List.dropWhile_cons_of_neg hc⟩
  rw [spanDigits, List.takeWhile_append_of_pos hdigits, List.dropWhile_append_of_pos hdigits,
    hstop.1, hstop.2, List.append_nil]

/-- The whole part of a number is read up to its last digit. -/
lemma readWhole_toDigits (n : Nat) :
    readWhole (Nat.toDigits 10 n ++ rest) = (Nat.toDigits 10 n, rest) := by
  by_cases hn : n = 0
  · subst hn
    rw [Nat.toDigits_zero]
    rfl
  · rw [readWhole.eq_def]
    split
    · next tail htext =>
        have hhead : (Nat.toDigits 10 n).head? = some '0' := by
          rw [← List.head?_append_of_ne_nil _ Nat.toDigits_ne_nil, htext]
          rfl
        exact absurd hhead (head?_toDigits hn)
    · exact spanDigits_append h fun c hc => isAsciiDigit_of_mem_toDigits hc

lemma readFraction_of_endsNumber : readFraction rest = ([], rest) := by
  rw [readFraction.eq_def]
  split
  · next tail => exact absurd rfl (h '.' rfl).2.1
  · rfl

lemma readExponent_of_endsNumber : readExponent rest = (none, rest) := by
  cases rest with
  | nil => rfl
  | cons c rest =>
      obtain ⟨-, -, he, hE⟩ := h c rfl
      rw [readExponent.eq_def]
      exact if_neg (by simp [he, hE])

/-- Digits are read as a number up to the last one. -/
lemma readNumber_toDigits (n : Nat) : readNumber (Nat.toDigits 10 n ++ rest)
    = (numberOf false (Nat.toDigits 10 n) [] none).map (·, rest) := by
  rw [readNumber.eq_def]
  dsimp only
  split
  · next tail htext => exact absurd htext (toDigits_append_ne_minus n rest tail)
  · simp only [readWhole_toDigits h, readFraction_of_endsNumber h, readExponent_of_endsNumber h,
      if_neg Nat.toDigits_ne_nil]

@[inherit_doc readNumber_toDigits]
lemma readNumber_minus_toDigits (n : Nat) : readNumber ('-' :: (Nat.toDigits 10 n ++ rest))
    = (numberOf true (Nat.toDigits 10 n) [] none).map (·, rest) := by
  rw [readNumber.eq_def]
  simp only [readWhole_toDigits h, readFraction_of_endsNumber h, readExponent_of_endsNumber h,
    if_neg Nat.toDigits_ne_nil]

/-- **A whole number is read back from its digits**, unless these are too many. -/
theorem readNumber_intText {n : Int} (hn : IsShort n) :
    readNumber (intText n ++ rest) = .ok (.int n, rest) := by
  cases n with
  | ofNat m =>
      have hm : (Nat.toDigits 10 m).length ≤ digitLimit := hn
      rw [intText, readNumber_toDigits h, numberOf_toDigits hm]
      rfl
  | negSucc m =>
      have hm : (Nat.toDigits 10 (m + 1)).length ≤ digitLimit := hn
      rw [intText, List.cons_append, readNumber_minus_toDigits h, numberOf_toDigits hm]
      rfl

/-- If they are, this is where reading stops. -/
lemma readNumber_intText_of_not_isShort {n : Int} (hn : ¬ IsShort n) :
    readNumber (intText n ++ rest)
      = .error (.longNumber (Nat.toDigits 10 n.natAbs).length) := by
  have hlong : ∀ negative, numberOf negative (Nat.toDigits 10 n.natAbs) [] none
      = .error (.longNumber (Nat.toDigits 10 n.natAbs).length) := by
    intro negative
    rw [numberOf, if_pos ⟨rfl, rfl⟩, if_pos (Nat.not_le.mp hn)]
  cases n with
  | ofNat m =>
      rw [intText, readNumber_toDigits h]
      exact congrArg (Except.map (·, rest)) (hlong false)
  | negSucc m =>
      rw [intText, List.cons_append, readNumber_minus_toDigits h]
      exact congrArg (Except.map (·, rest)) (hlong true)

end Numbers

/-- The digits of a number begin with a digit. -/
lemma exists_toDigits_eq_cons (n : Nat) :
    ∃ d ds, Nat.toDigits 10 n = d :: ds ∧ Text.isAsciiDigit d = true := by
  obtain ⟨d, ds, hds⟩ := List.exists_cons_of_ne_nil (Nat.toDigits_ne_nil (n := n) (b := 10))
  exact ⟨d, ds, hds, isAsciiDigit_of_mem_toDigits (by rw [hds]; exact List.mem_cons_self ..)⟩

/-- What begins with a digit, with or without a sign, is none of the words that are read. -/
lemma readScalar_digit {d : Char} (hd : Text.isAsciiDigit d = true) (cs : List Char) :
    readScalar (d :: cs) = readNumber (d :: cs) ∧
      readScalar ('-' :: d :: cs) = readNumber ('-' :: d :: cs) := by
  have hne : ∀ c, Text.isAsciiDigit c = false → ∀ tail tail', d :: tail ≠ c :: tail' :=
    fun c hc _ _ h => ne_of_isAsciiDigit hd hc (List.cons.inj h).1
  constructor
  · rw [readScalar.eq_def]
    split
    case h_7 => rfl
    all_goals
      next h => exact absurd h (hne _ (by decide) _ _)
  · rw [readScalar.eq_def]
    split
    case h_6 => next h => exact absurd (List.cons.inj h).2 (hne _ (by decide) _ _)
    case h_7 => rfl
    all_goals
      next h => exact absurd (List.cons.inj h).1 (by decide)

/-- The text of a whole number is none of these words. -/
lemma readScalar_intText (n : Int) (rest : List Char) :
    readScalar (intText n ++ rest) = readNumber (intText n ++ rest) := by
  cases n with
  | ofNat m =>
      obtain ⟨d, ds, hds, hd⟩ := exists_toDigits_eq_cons m
      rw [intText, hds]
      exact (readScalar_digit hd _).1
  | negSucc m =>
      obtain ⟨d, ds, hds, hd⟩ := exists_toDigits_eq_cons (m + 1)
      rw [intText, hds]
      exact (readScalar_digit hd _).2

/-! ### Values that are read back -/

/-- There is no floating point number in the value, no object in it has a key twice, and the whole
numbers in it are of one sort. -/
inductive IsBuilt (sort : Int → Prop) : Json → Prop where
  | null : IsBuilt sort .null
  | bool (b : Bool) : IsBuilt sort (.bool b)
  | int {n : Int} : sort n → IsBuilt sort (.int n)
  | str (s : String) : IsBuilt sort (.str s)
  | arr {items : List Json} : (∀ x ∈ items, IsBuilt sort x) → IsBuilt sort (.arr items)
  | obj {fields : List (String × Json)} : (fields.map Prod.fst).Nodup →
      (∀ e ∈ fields, IsBuilt sort e.2) → IsBuilt sort (.obj fields)

/-- So it is, and no whole number in it has too many digits. -/
abbrev IsRestorable : Json → Prop := IsBuilt IsShort

lemma itemsHoldLongNumber_eq (items : List Json) :
    itemsHoldLongNumber items = items.any holdsLongNumber := by
  induction items with
  | nil => rfl
  | cons x items ih => rw [itemsHoldLongNumber, ih, List.any_cons]

lemma fieldsHoldLongNumber_eq (fields : List (String × Json)) :
    fieldsHoldLongNumber fields = fields.any fun e => e.2.holdsLongNumber := by
  induction fields with
  | nil => rfl
  | cons e fields ih =>
      obtain ⟨key, x⟩ := e
      rw [fieldsHoldLongNumber, ih, List.any_cons]

/-- A value that is built of any numbers is restorable exactly if none of them has too many digits.
-/
lemma IsBuilt.isRestorable_iff {sort : Int → Prop} {v : Json} (h : v.IsBuilt sort) :
    v.IsRestorable ↔ v.holdsLongNumber = false := by
  induction h with
  | null => exact iff_of_true .null rfl
  | bool b => exact iff_of_true (.bool b) rfl
  | str s => exact iff_of_true (.str s) rfl
  | int hn =>
      rw [holdsLongNumber, isLong_eq_false_iff]
      constructor
      · rintro ⟨⟩
        assumption
      · exact .int
  | @arr items hitems ih =>
      have hall : (Json.arr items).IsRestorable ↔ ∀ x ∈ items, x.IsRestorable := by
        constructor
        · rintro ⟨⟩
          assumption
        · exact .arr
      rw [hall, holdsLongNumber, itemsHoldLongNumber_eq, List.any_eq_false]
      exact forall₂_congr fun x hx => by rw [ih x hx, Bool.not_eq_true]
  | @obj fields hkeys hfields ih =>
      have hall : (Json.obj fields).IsRestorable ↔ ∀ e ∈ fields, e.2.IsRestorable := by
        constructor
        · rintro ⟨⟩
          assumption
        · exact .obj hkeys
      rw [hall, holdsLongNumber, fieldsHoldLongNumber_eq, List.any_eq_false]
      exact forall₂_congr fun e he => by rw [ih e he, Bool.not_eq_true]

/-- The text of such a value begins with neither white space nor a closing bracket. -/
lemma IsBuilt.exists_front {sort : Int → Prop} {v : Json} (h : v.IsBuilt sort) :
    ∃ c cs, v.writtenChars = c :: cs ∧ isSpace c = false ∧ c ≠ ']' := by
  have hdigit : ∀ c, Text.isAsciiDigit c = true → isSpace c = false ∧ c ≠ ']' := by
    intro c hc
    have hblank := ne_of_isAsciiDigit hc (d := ' ') (by decide)
    have htab := ne_of_isAsciiDigit hc (d := '\t') (by decide)
    have hfeed := ne_of_isAsciiDigit hc (d := '\n') (by decide)
    have hreturn := ne_of_isAsciiDigit hc (d := '\r') (by decide)
    exact ⟨by simp [isSpace, hblank, htab, hfeed, hreturn], ne_of_isAsciiDigit hc (by decide)⟩
  cases h with
  | null => exact ⟨_, _, rfl, rfl, by decide⟩
  | bool b => cases b <;> exact ⟨_, _, rfl, rfl, by decide⟩
  | str s => exact ⟨_, _, rfl, rfl, by decide⟩
  | arr h => exact ⟨_, _, rfl, rfl, by decide⟩
  | obj hkeys h => exact ⟨_, _, rfl, rfl, by decide⟩
  | @int n hn =>
      cases n with
      | ofNat m =>
          obtain ⟨d, ds, hds, hd⟩ := exists_toDigits_eq_cons m
          exact ⟨d, ds, hds, hdigit d hd⟩
      | negSucc m => exact ⟨_, _, rfl, rfl, by decide⟩

/-- White space before such a text is passed over, and nothing of the text. -/
lemma IsBuilt.skipSpace_blank {sort : Int → Prop} {v : Json} (h : v.IsBuilt sort)
    (after : List Char) :
    skipSpace (' ' :: (v.writtenChars ++ after)) = v.writtenChars ++ after := by
  obtain ⟨c, cs, hc, hspace, -⟩ := h.exists_front
  have hstop : ¬ isSpace c = true := by simp [hspace]
  rw [hc]
  exact List.dropWhile_cons_of_neg hstop

/-- The text of items begins with that of the first one. -/
lemma exists_writtenItems_eq_append (x : Json) (xs : List Json) :
    ∃ tail, writtenItems (x :: xs) = x.writtenChars ++ tail := by
  cases xs with
  | nil => exact ⟨[], (List.append_nil _).symm⟩
  | cons y ys => exact ⟨entrySeparator ++ writtenItems (y :: ys), List.append_assoc ..⟩

/-- The text of entries begins with a mark. -/
lemma exists_writtenFields_eq_cons (e : String × Json) (es : List (String × Json)) :
    ∃ tail, writtenFields (e :: es) = '"' :: tail := by
  cases es with
  | nil => exact ⟨_, rfl⟩
  | cons e' es => exact ⟨_, rfl⟩

/-- White space before items is passed over. -/
lemma skipSpace_writtenItems {sort : Int → Prop} {x : Json} (h : x.IsBuilt sort) {xs : List Json}
    {rest : List Char} :
    skipSpace (' ' :: (writtenItems (x :: xs) ++ rest)) = writtenItems (x :: xs) ++ rest := by
  obtain ⟨tail, htail⟩ := exists_writtenItems_eq_append x xs
  rw [htail, List.append_assoc]
  exact h.skipSpace_blank _

/-- White space before entries is passed over. -/
lemma skipSpace_writtenFields {e : String × Json} {es : List (String × Json)} {rest : List Char} :
    skipSpace (' ' :: (writtenFields (e :: es) ++ rest)) = writtenFields (e :: es) ++ rest := by
  obtain ⟨tail, htail⟩ := exists_writtenFields_eq_cons e es
  rw [htail]
  rfl

lemma writtenItems_cons_cons (x y : Json) (ys : List Json) (rest : List Char) :
    writtenItems (x :: y :: ys) ++ rest
      = x.writtenChars ++ ',' :: ' ' :: (writtenItems (y :: ys) ++ rest) := by
  simp [writtenItems, entrySeparator]

section Entries

variable (key : String) (x : Json) (rest : List Char)

lemma writtenFields_singleton : writtenFields [(key, x)] ++ rest
    = stringLiteral key.toList ++ ':' :: ' ' :: (x.writtenChars ++ rest) := by
  simp [writtenFields]

lemma writtenFields_cons_cons (e : String × Json) (es : List (String × Json)) :
    writtenFields ((key, x) :: e :: es) ++ rest = stringLiteral key.toList ++
      ':' :: ' ' :: (x.writtenChars ++ ',' :: ' ' :: (writtenFields (e :: es) ++ rest)) := by
  simp [writtenFields, entrySeparator]

end Entries

mutual
/-- The number of steps that reading a value takes. -/
def steps : Json → Nat
  | .arr items => 1 + stepsOfItems items
  | .obj fields => 1 + stepsOfFields fields
  | _ => 1
/-- The number of steps that reading items takes. -/
def stepsOfItems : List Json → Nat
  | [] => 0
  | x :: xs => 1 + steps x + stepsOfItems xs
/-- The number of steps that reading entries takes. -/
def stepsOfFields : List (String × Json) → Nat
  | [] => 0
  | (_, x) :: xs => 1 + steps x + stepsOfFields xs
end

/-- Reading a value takes at least one step. -/
lemma exists_fuel {v : Json} {fuel : Nat} (h : steps v ≤ fuel) : ∃ n, fuel = n + 1 := by
  refine ⟨fuel - 1, ?_⟩
  cases v with
  | arr items => rw [steps] at h; omega
  | obj fields => rw [steps] at h; omega
  | _ => simp only [steps] at h; omega

/-! ### Steps of the reader -/

section Steps

variable {fuel : Nat} {rest : List Char}

/-- What begins neither a string, a list nor an object is a word or a number. -/
lemma readValue_scalar {c : Char} (hmark : c ≠ '"') (hlist : c ≠ '[') (hobject : c ≠ '{')
    (fuel : Nat) (cs : List Char) : readValue (fuel + 1) (c :: cs) = readScalar (c :: cs) := by
  rw [readValue]
  simp only [if_neg hmark, if_neg hlist, if_neg hobject]

lemma readValue_intText (n : Int) :
    readValue (fuel + 1) (intText n ++ rest) = readNumber (intText n ++ rest) := by
  rw [← readScalar_intText n rest]
  cases n with
  | ofNat m =>
      obtain ⟨d, ds, hds, hd⟩ := exists_toDigits_eq_cons m
      rw [intText, hds]
      exact readValue_scalar (ne_of_isAsciiDigit hd (by decide)) (ne_of_isAsciiDigit hd (by decide))
        (ne_of_isAsciiDigit hd (by decide)) fuel _
  | negSucc m => exact readValue_scalar (by decide) (by decide) (by decide) fuel _

lemma readValue_stringLiteral (s : String) :
    readValue (fuel + 1) (stringLiteral s.toList ++ rest) = .ok (.str s, rest) := by
  have hread : ∀ cs, readValue (fuel + 1) ('"' :: cs)
      = readString ('"' :: cs) cs >>= fun r => pure (.str (String.ofList r.1), r.2) := fun _ => rfl
  rw [stringLiteral, List.cons_append, List.cons_append, List.append_assoc, hread,
    List.singleton_append, readString_escaped, ok_bind]
  dsimp only
  rw [String.ofList_toList]
  rfl

/-- A list is read by its items if the first of them does not begin with a bracket. -/
lemma readValue_items {inside : List Char} {c : Char} {cs : List Char} (hinside : inside = c :: cs)
    (hspace : isSpace c = false) (hc : c ≠ ']') : readValue (fuel + 1) ('[' :: inside)
      = readItems fuel inside >>= fun r => pure (.arr r.1, r.2) := by
  have hstop : ¬ isSpace c = true := by simp [hspace]
  have hskip : skipSpace inside = inside := by
    rw [hinside]
    exact List.dropWhile_cons_of_neg hstop
  rw [readValue, if_neg (by decide), if_pos rfl, hskip]
  split
  · next out => exact absurd (List.cons.inj hinside).1.symm hc
  · rfl

/-- An object is read by its entries. -/
lemma readValue_pairs (cs : List Char) : readValue (fuel + 1) ('{' :: '"' :: cs)
    = readPairs fuel ('"' :: cs) >>= fun r => pure (.obj (Fields.ofPairs r.1), r.2) := rfl

/-- The text of a list that is not empty is read by its items. -/
lemma readValue_written_arr {sort : Int → Prop} {x : Json} (h : x.IsBuilt sort) (xs : List Json) :
    readValue (fuel + 1) (writtenChars (.arr (x :: xs)) ++ rest)
      = readItems fuel (writtenItems (x :: xs) ++ ']' :: rest) >>= fun r =>
        pure (.arr r.1, r.2) := by
  obtain ⟨c, cs, hc, hspace, hbracket⟩ := h.exists_front
  obtain ⟨tail, htail⟩ := exists_writtenItems_eq_append x xs
  have hfront : writtenItems (x :: xs) ++ ']' :: rest = c :: (cs ++ tail ++ ']' :: rest) := by
    rw [htail, hc]
    rfl
  rw [writtenChars, List.cons_append, List.cons_append, List.append_assoc, List.singleton_append]
  exact readValue_items hfront hspace hbracket

/-- The text of an object that is not empty is read by its entries. -/
lemma readValue_written_obj (e : String × Json) (es : List (String × Json)) :
    readValue (fuel + 1) (writtenChars (.obj (e :: es)) ++ rest)
      = readPairs fuel (writtenFields (e :: es) ++ '}' :: rest) >>= fun r =>
        pure (.obj (Fields.ofPairs r.1), r.2) := by
  obtain ⟨tail, htail⟩ := exists_writtenFields_eq_cons e es
  rw [writtenChars, List.cons_append, List.cons_append, List.append_assoc, List.singleton_append,
    htail, List.cons_append]
  exact readValue_pairs _

/-- An item is read up to what follows it, which tells whether it is the last one. -/
lemma readItems_item {x : Json} {after : List Char}
    (hx : readValue fuel (x.writtenChars ++ after) = .ok (x, after)) :
    readItems (fuel + 1) (x.writtenChars ++ after)
      = match skipSpace after with
        | ']' :: out => return ([x], out)
        | ',' :: next => do
          let (xs, out) ← readItems fuel (skipSpace next)
          return (x :: xs, out)
        | other => .error (.fault .commaExpected other) := by
  rw [readItems, hx]
  rfl

/-- After a comma the items go on. -/
lemma readItems_comma {x : Json} {next : List Char}
    (hx : readValue fuel (x.writtenChars ++ ',' :: next) = .ok (x, ',' :: next)) :
    readItems (fuel + 1) (x.writtenChars ++ ',' :: next)
      = readItems fuel (skipSpace next) >>= fun r => pure (x :: r.1, r.2) :=
  readItems_item hx

/-- An entry is read by its key and its value. -/
lemma readPairs_key {sort : Int → Prop} {key : String} {x : Json} (h : x.IsBuilt sort)
    (after : List Char) :
    readPairs (fuel + 1) (stringLiteral key.toList ++ ':' :: ' ' :: (x.writtenChars ++ after))
      = readValue fuel (x.writtenChars ++ after) >>= fun r =>
        match skipSpace r.2 with
        | '}' :: out => return ([(key, r.1)], out)
        | ',' :: next => do
          let (xs, out) ← readPairs fuel (skipSpace next)
          return ((key, r.1) :: xs, out)
        | other => .error (.fault .commaExpected other) := by
  rw [stringLiteral, List.cons_append, List.cons_append, List.append_assoc, List.singleton_append]
  change readString _ _ >>= _ = _
  rw [readString_escaped, ok_bind]
  change readValue fuel (skipSpace (' ' :: (x.writtenChars ++ after))) >>= _ = _
  rw [String.ofList_toList]
  exact congrArg (readValue fuel · >>= _) (h.skipSpace_blank after)

/-- What follows its value tells whether it is the last one. -/
lemma readPairs_entry {key : String} {x : Json} {after : List Char} (h : x.IsRestorable)
    (hx : readValue fuel (x.writtenChars ++ after) = .ok (x, after)) :
    readPairs (fuel + 1) (stringLiteral key.toList ++ ':' :: ' ' :: (x.writtenChars ++ after))
      = match skipSpace after with
        | '}' :: out => return ([(key, x)], out)
        | ',' :: next => do
          let (xs, out) ← readPairs fuel (skipSpace next)
          return ((key, x) :: xs, out)
        | other => .error (.fault .commaExpected other) := by
  rw [readPairs_key h, hx]
  rfl

/-- After a comma the entries go on. -/
lemma readPairs_comma {key : String} {x : Json} {next : List Char} (h : x.IsRestorable)
    (hx : readValue fuel (x.writtenChars ++ ',' :: next) = .ok (x, ',' :: next)) :
    readPairs (fuel + 1) (stringLiteral key.toList ++ ':' :: ' ' :: (x.writtenChars ++ ',' :: next))
      = readPairs fuel (skipSpace next) >>= fun r => pure ((key, x) :: r.1, r.2) :=
  readPairs_entry h hx

end Steps

/-! ### Reading back -/

mutual

/-- **A value is read back from its text**, if what follows does not go on with a number. -/
theorem readValue_written : ∀ {v : Json} {fuel : Nat} {rest : List Char}, v.IsRestorable →
    steps v ≤ fuel → EndsNumber rest → readValue fuel (v.writtenChars ++ rest) = .ok (v, rest)
  | .null, fuel, rest, _, hfuel, _ => by
      obtain ⟨n, rfl⟩ := exists_fuel hfuel
      rfl
  | .bool b, fuel, rest, _, hfuel, _ => by
      obtain ⟨n, rfl⟩ := exists_fuel hfuel
      cases b <;> rfl
  | .int n, fuel, rest, h, hfuel, hrest => by
      obtain ⟨m, rfl⟩ := exists_fuel hfuel
      cases h with
      | int hn =>
          rw [writtenChars, readValue_intText]
          exact readNumber_intText hrest hn
  | .float x, _, _, h, _, _ => by cases h
  | .str s, fuel, rest, _, hfuel, _ => by
      obtain ⟨n, rfl⟩ := exists_fuel hfuel
      exact readValue_stringLiteral s
  | .arr [], fuel, rest, _, hfuel, _ => by
      obtain ⟨n, rfl⟩ := exists_fuel hfuel
      rfl
  | .arr (x :: xs), fuel, rest, h, hfuel, _ => by
      obtain ⟨n, rfl⟩ := exists_fuel hfuel
      rw [steps] at hfuel
      cases h with
      | arr hitems =>
          have hread := @readItems_written (x :: xs) n rest (List.cons_ne_nil _ _) hitems (by omega)
          rw [readValue_written_arr (hitems x (List.mem_cons_self ..)), hread, ok_bind]
          rfl
  | .obj [], fuel, rest, _, hfuel, _ => by
      obtain ⟨n, rfl⟩ := exists_fuel hfuel
      rfl
  | .obj ((key, x) :: xs), fuel, rest, h, hfuel, _ => by
      obtain ⟨n, rfl⟩ := exists_fuel hfuel
      rw [steps] at hfuel
      cases h with
      | obj hkeys hfields =>
          have hread := @readPairs_written ((key, x) :: xs) n rest (List.cons_ne_nil _ _) hfields
            (by omega)
          rw [readValue_written_obj, hread, ok_bind, Fields.ofPairs_eq_self hkeys]
          rfl

/-- **Items are read back from their text**, up to the bracket that closes them. -/
theorem readItems_written : ∀ {items : List Json} {fuel : Nat} {rest : List Char}, items ≠ [] →
    (∀ x ∈ items, IsRestorable x) → stepsOfItems items ≤ fuel →
      readItems fuel (writtenItems items ++ ']' :: rest) = .ok (items, rest)
  | [], _, _, hne, _, _ => absurd rfl hne
  | [x], fuel, rest, _, h, hfuel => by
      rw [stepsOfItems, stepsOfItems] at hfuel
      obtain ⟨n, rfl⟩ : ∃ n, fuel = n + 1 := ⟨fuel - 1, by omega⟩
      have hx := @readValue_written x n (']' :: rest) (h x (List.mem_cons_self ..)) (by omega)
        (endsNumber_cons (by decide))
      rw [writtenItems, readItems_item hx]
      rfl
  | x :: y :: ys, fuel, rest, _, h, hfuel => by
      rw [stepsOfItems] at hfuel
      obtain ⟨n, rfl⟩ : ∃ n, fuel = n + 1 := ⟨fuel - 1, by omega⟩
      have hx := @readValue_written x n (',' :: ' ' :: (writtenItems (y :: ys) ++ ']' :: rest))
        (h x (List.mem_cons_self ..)) (by omega) (endsNumber_cons (by decide))
      have hrest := @readItems_written (y :: ys) n rest (List.cons_ne_nil _ _)
        (fun z hz => h z (List.mem_cons_of_mem _ hz)) (by omega)
      rw [writtenItems_cons_cons, readItems_comma hx, skipSpace_writtenItems (h y (by simp)), hrest]
      rfl

/-- **Entries are read back from their text**, up to the brace that closes them. -/
theorem readPairs_written : ∀ {fields : List (String × Json)} {fuel : Nat} {rest : List Char},
    fields ≠ [] → (∀ e ∈ fields, IsRestorable e.2) → stepsOfFields fields ≤ fuel →
      readPairs fuel (writtenFields fields ++ '}' :: rest) = .ok (fields, rest)
  | [], _, _, hne, _, _ => absurd rfl hne
  | [(key, x)], fuel, rest, _, h, hfuel => by
      rw [stepsOfFields, stepsOfFields] at hfuel
      obtain ⟨n, rfl⟩ : ∃ n, fuel = n + 1 := ⟨fuel - 1, by omega⟩
      have hrestorable : x.IsRestorable := h (key, x) (List.mem_cons_self ..)
      have hx := @readValue_written x n ('}' :: rest) hrestorable (by omega)
        (endsNumber_cons (by decide))
      rw [writtenFields_singleton, readPairs_entry hrestorable hx]
      rfl
  | (key, x) :: e :: es, fuel, rest, _, h, hfuel => by
      rw [stepsOfFields] at hfuel
      obtain ⟨n, rfl⟩ : ∃ n, fuel = n + 1 := ⟨fuel - 1, by omega⟩
      have hrestorable : x.IsRestorable := h (key, x) (List.mem_cons_self ..)
      have hx := @readValue_written x n (',' :: ' ' :: (writtenFields (e :: es) ++ '}' :: rest))
        hrestorable (by omega) (endsNumber_cons (by decide))
      have hrest := @readPairs_written (e :: es) n rest (List.cons_ne_nil _ _)
        (fun z hz => h z (List.mem_cons_of_mem _ hz)) (by omega)
      rw [writtenFields_cons_cons, readPairs_comma hrestorable hx, skipSpace_writtenFields, hrest]
      rfl

end

/-! ### Whole texts -/

mutual

/-- Reading a value takes at most two steps for every character of its text. -/
lemma steps_le {sort : Int → Prop} : ∀ {v : Json}, v.IsBuilt sort →
    steps v ≤ 2 * v.writtenChars.length
  | .arr items, h => by
      cases h with
      | arr hitems =>
          have hle := stepsOfItems_le hitems
          rw [steps, writtenChars, List.cons_append, List.length_cons, List.length_append]
          omega
  | .obj fields, h => by
      cases h with
      | obj hkeys hfields =>
          have hle := stepsOfFields_le hfields
          rw [steps, writtenChars, List.cons_append, List.length_cons, List.length_append]
          omega
  | .null, h | .bool _, h | .int _, h | .float _, h | .str _, h => by
      obtain ⟨c, cs, hc, -, -⟩ := h.exists_front
      rw [steps, hc, List.length_cons]
      · omega
      all_goals
        rintro _ ⟨⟩

lemma stepsOfItems_le {sort : Int → Prop} : ∀ {items : List Json},
    (∀ x ∈ items, IsBuilt sort x) →
    stepsOfItems items ≤ 2 * (writtenItems items).length + 1
  | [], _ => Nat.zero_le _
  | [x], h => by
      have hx := steps_le (h x (List.mem_cons_self ..))
      rw [stepsOfItems, stepsOfItems, writtenItems]
      omega
  | x :: y :: ys, h => by
      have hx := steps_le (h x (List.mem_cons_self ..))
      have hrest := @stepsOfItems_le sort (y :: ys) fun z hz => h z (List.mem_cons_of_mem _ hz)
      have hlength := congrArg List.length (writtenItems_cons_cons x y ys [])
      rw [stepsOfItems]
      simp only [List.append_nil, List.length_append, List.length_cons] at hlength
      omega

lemma stepsOfFields_le {sort : Int → Prop} : ∀ {fields : List (String × Json)},
    (∀ e ∈ fields, IsBuilt sort e.2) →
    stepsOfFields fields ≤ 2 * (writtenFields fields).length + 1
  | [], _ => Nat.zero_le _
  | [(key, x)], h => by
      have hx : steps x ≤ _ := steps_le (h (key, x) (List.mem_cons_self ..))
      have hlength := congrArg List.length (writtenFields_singleton key x [])
      rw [stepsOfFields, stepsOfFields]
      simp only [List.append_nil, List.length_append, List.length_cons] at hlength
      omega
  | (key, x) :: e :: es, h => by
      have hx : steps x ≤ _ := steps_le (h (key, x) (List.mem_cons_self ..))
      have hrest := @stepsOfFields_le sort (e :: es) fun z hz => h z (List.mem_cons_of_mem _ hz)
      have hlength := congrArg List.length (writtenFields_cons_cons key x [] e es)
      rw [stepsOfFields]
      simp only [List.append_nil, List.length_append, List.length_cons] at hlength
      omega

end

lemma isPrintable_of_isAsciiDigit {c : Char} (h : Text.isAsciiDigit c = true) : IsPrintable c := by
  rw [Text.isAsciiDigit, Text.asciiDigit?] at h
  split at h
  · next hrange => exact ⟨by omega, by omega⟩
  · cases h

lemma isPrintable_of_mem_intText {n : Int} {d : Char} (h : d ∈ intText n) : IsPrintable d := by
  cases n with
  | ofNat m => exact isPrintable_of_isAsciiDigit (isAsciiDigit_of_mem_toDigits h)
  | negSucc m =>
      rcases List.mem_cons.mp h with rfl | h
      · decide
      · exact isPrintable_of_isAsciiDigit (isAsciiDigit_of_mem_toDigits h)

section FloatingPoint

variable {digits : List Char} {d : Char}

/-- Digits are laid out with points, signs, marks of exponents and zeros. -/
lemma isPrintable_of_mem_layout (hdigits : ∀ c ∈ digits, Text.isAsciiDigit c = true) {point : Int}
    (h : d ∈ Binary64.layout digits point) : IsPrintable d := by
  have hprintable : ∀ c ∈ digits, IsPrintable c := fun c hc =>
    isPrintable_of_isAsciiDigit (hdigits c hc)
  have hzeros : ∀ n, d ∈ List.replicate n '0' → IsPrintable d := by
    intro n hn
    obtain rfl := List.eq_of_mem_replicate hn
    decide
  rw [Binary64.layout] at h
  split at h
  case isTrue =>
    simp only [List.mem_append] at h
    rcases h with (((h | h) | h) | h) | h
    · exact hprintable d (List.mem_of_mem_take h)
    · split at h
      · cases h
      · rcases List.mem_cons.mp h with rfl | h
        · decide
        · exact hprintable d (List.mem_of_mem_drop h)
    · rcases List.mem_pair.mp h with rfl | rfl
      · decide
      · split <;> decide
    · exact hzeros _ h
    · exact isPrintable_of_isAsciiDigit (isAsciiDigit_of_mem_toDigits h)
  case isFalse =>
    split at h
    · simp only [List.mem_append] at h
      rcases h with (h | h) | h
      · exact isPrintable_of_all (by decide) h
      · exact hzeros _ h
      · exact hprintable d h
    · split at h
      · simp only [List.mem_append] at h
        rcases h with (h | h) | h
        · exact hprintable d h
        · exact hzeros _ h
        · exact isPrintable_of_all (by decide) h
      · rcases List.mem_append.mp h with h | h
        · exact hprintable d (List.mem_of_mem_take h)
        · rcases List.mem_cons.mp h with rfl | h
          · decide
          · exact hprintable d (List.mem_of_mem_drop h)

lemma isPrintable_of_mem_magnitudeText {units : Nat} (h : d ∈ Binary64.magnitudeText units) :
    IsPrintable d := by
  rw [Binary64.magnitudeText] at h
  split at h
  · exact isPrintable_of_all (by decide) h
  · exact isPrintable_of_mem_layout (fun c hc => isAsciiDigit_of_mem_toDigits hc) h

/-- A number is written in printable characters if its names are. -/
lemma isPrintable_of_mem_text {names : Binary64.NumberNames}
    (hnan : ∀ c ∈ names.nan.toList, IsPrintable c)
    (hinfinity : ∀ c ∈ names.infinity.toList, IsPrintable c) {x : Binary64}
    (h : d ∈ (x.text names).toList) : IsPrintable d := by
  have hsign : ∀ negative : Bool, d ∈ (if negative then "-" else "").toList → IsPrintable d := by
    intro negative hd
    cases negative <;> exact isPrintable_of_all (by decide) hd
  cases x with
  | nan => exact hnan d h
  | infinite negative =>
      rw [Binary64.text, String.toList_append, List.mem_append] at h
      exact h.elim (hsign negative) (hinfinity d)
  | finite negative units =>
      rw [Binary64.text, String.toList_append, List.mem_append, String.toList_ofList] at h
      exact h.elim (hsign negative) isPrintable_of_mem_magnitudeText

end FloatingPoint

mutual

/-- **The text of a value is made of printable ASCII characters**, so it stands on one line. -/
theorem isPrintable_of_mem_writtenChars : ∀ {v : Json} {d : Char}, d ∈ v.writtenChars → IsPrintable d
  | .null, d, hd => by
      exact isPrintable_of_all (by decide) hd
  | .bool b, d, hd => by
      cases b <;> exact isPrintable_of_all (by decide) hd
  | .int n, _, hd => isPrintable_of_mem_intText hd
  | .float x, _, hd =>
      isPrintable_of_mem_text (fun _ => isPrintable_of_all (by decide))
        (fun _ => isPrintable_of_all (by decide)) hd
  | .str s, _, hd => isPrintable_of_mem_stringLiteral hd
  | .arr items, d, hd => by
      simp only [writtenChars, List.cons_append, List.mem_cons, List.mem_append,
        List.not_mem_nil, or_false] at hd
      rcases hd with rfl | hd | rfl
      · decide
      · exact isPrintable_of_mem_writtenItems hd
      · decide
  | .obj fields, d, hd => by
      simp only [writtenChars, List.cons_append, List.mem_cons, List.mem_append,
        List.not_mem_nil, or_false] at hd
      rcases hd with rfl | hd | rfl
      · decide
      · exact isPrintable_of_mem_writtenFields hd
      · decide

lemma isPrintable_of_mem_writtenItems : ∀ {items : List Json} {d : Char}, d ∈ writtenItems items →
    IsPrintable d
  | [], _, hd => by cases hd
  | [x], _, hd => isPrintable_of_mem_writtenChars (v := x) hd
  | x :: y :: ys, d, hd => by
      rw [← List.append_nil (writtenItems _), writtenItems_cons_cons, List.append_nil,
        List.mem_append, List.mem_cons, List.mem_cons] at hd
      rcases hd with hd | rfl | rfl | hd
      · exact isPrintable_of_mem_writtenChars hd
      · decide
      · decide
      · exact isPrintable_of_mem_writtenItems hd

lemma isPrintable_of_mem_writtenFields : ∀ {fields : List (String × Json)} {d : Char},
    d ∈ writtenFields fields → IsPrintable d
  | [], _, hd => by cases hd
  | [(key, x)], d, hd => by
      rw [← List.append_nil (writtenFields _), writtenFields_singleton, List.append_nil,
        List.mem_append, List.mem_cons, List.mem_cons] at hd
      rcases hd with hd | rfl | rfl | hd
      · exact isPrintable_of_mem_stringLiteral hd
      · decide
      · decide
      · exact isPrintable_of_mem_writtenChars hd
  | (key, x) :: e :: es, d, hd => by
      rw [← List.append_nil (writtenFields _), writtenFields_cons_cons, List.append_nil,
        List.mem_append, List.mem_cons, List.mem_cons, List.mem_append, List.mem_cons,
        List.mem_cons] at hd
      rcases hd with hd | rfl | rfl | hd | rfl | rfl | hd
      · exact isPrintable_of_mem_stringLiteral hd
      · decide
      · decide
      · exact isPrintable_of_mem_writtenChars hd
      · decide
      · decide
      · exact isPrintable_of_mem_writtenFields hd

end

/-- A whole text begins with its value. -/
lemma readAll_written {sort : Int → Prop} {v : Json} (h : v.IsBuilt sort) :
    readAll v.writtenChars
      = readValue (2 * v.writtenChars.length + 2) v.writtenChars >>= fun r =>
        match skipSpace r.2 with
        | [] => return r.1
        | extra => .error (.fault .extraText extra) := by
  obtain ⟨c, cs, hc, hspace, -⟩ := h.exists_front
  have hstop : ¬ isSpace c = true := by simp [hspace]
  have hskip : skipSpace v.writtenChars = v.writtenChars := by
    rw [hc]
    exact List.dropWhile_cons_of_neg hstop
  rw [readAll.eq_def]
  split
  · next tail hmark =>
      have hbom : IsPrintable '\uFEFF' :=
        isPrintable_of_mem_writtenChars (d := '\uFEFF') (by rw [hmark]; exact List.mem_cons_self ..)
      exact absurd hbom (by decide)
  · exact congrArg (readValue (2 * v.writtenChars.length + 2) · >>= _) hskip

/-- **A value without floating point numbers is read back from its text** if no number in it has too
many digits: strings with any characters, and objects with their keys in the order in which they
stand. -/
theorem read_written {v : Json} (h : v.IsRestorable) : read v.written = .ok v := by
  have hfuel := steps_le h
  have hvalue : readValue (2 * v.writtenChars.length + 2) v.writtenChars = .ok (v, []) := by
    have hread := @readValue_written v (2 * v.writtenChars.length + 2) [] h (by omega)
      (by simp [EndsNumber])
    rwa [List.append_nil] at hread
  have hall : readAll v.writtenChars = .ok v := by
    rw [readAll_written h, hvalue]
    rfl
  rw [read, written, String.toList_ofList, readChars, hall]

end Json

end StyleTokens
