import StyleTokens.Proofs.WrittenValues

/-!
Whole numbers of too many digits.

* `Json.HasRun`: there are so many digits in a row in a text, and they are too many;
* `Json.StaysIn`: a reader leaves an end of its text, and if it stops at a number of too many
  digits, then the text has them;
* `Json.staysIn_readChar`, `Json.staysIn_readNumber`, `Json.staysIn_readValue`: so do the readers of
  characters, of numbers and, by induction on the steps, of values;
* `Json.hasRun_of_readChars`: reading stops at such a number only if the text has its digits;
* `Json.readValue_written_long`: it stops in the text of a value that holds such a number, by
  induction on the value;
* `Json.read_written_eq_ok_iff`: so a value is read back from its text exactly if it holds none.
-/

namespace StyleTokens.Json

variable {α β : Type} {cs rest : List Char} {digits : Nat}

/-! ### Texts with long numbers -/

/-- There are so many ASCII digits in a row in the text, and they are more than are read. -/
def HasRun (cs : List Char) (digits : Nat) : Prop :=
  digitLimit < digits ∧
    ∃ run, run <:+: cs ∧ run.length = digits ∧ ∀ d ∈ run, Text.isAsciiDigit d = true

/-- The reader of the text leaves an end of it or stops, and if it stops at a number of too many
digits, then the text has them. -/
def StaysIn (cs : List Char) : Except Stop (α × List Char) → Prop
  | .ok (_, rest) => rest <:+ cs
  | .error (.fault _ _) => True
  | .error (.longNumber digits) => HasRun cs digits

/-- Digits at the end of a text are in the text. -/
lemma HasRun.of_suffix (h : HasRun rest digits) (hrest : rest <:+ cs) : HasRun cs digits := by
  obtain ⟨hmany, run, hrun, hlength, hdigits⟩ := h
  exact ⟨hmany, run, hrun.trans hrest.isInfix, hlength, hdigits⟩

namespace StaysIn

variable {x : Except Stop (α × List Char)}

/-- A reader of the end of a text is one of the text. -/
lemma of_suffix (h : StaysIn rest x) (hrest : rest <:+ cs) : StaysIn cs x := by
  rcases x with (⟨fault, text⟩ | digits) | ⟨a, out⟩
  · trivial
  · exact HasRun.of_suffix h hrest
  · exact List.IsSuffix.trans h hrest

/-- One reader goes on where another one ends. -/
lemma bind {f : α × List Char → Except Stop (β × List Char)} (hx : StaysIn cs x)
    (hf : ∀ a rest, rest <:+ cs → StaysIn cs (f (a, rest))) : StaysIn cs (x >>= f) := by
  rcases x with (⟨fault, text⟩ | digits) | ⟨a, out⟩
  · trivial
  · exact hx
  · exact hf a out hx

end StaysIn

lemma skipSpace_suffix (cs : List Char) : skipSpace cs <:+ cs := List.dropWhile_suffix _

/-! ### Strings -/

lemma staysIn_readLowUnit (cs : List Char) : StaysIn cs (readLowUnit cs) := by
  rw [readLowUnit.eq_def]
  split
  · next b u k₁ k₂ k₃ k₄ rest =>
      split
      · split
        · trivial
        · split
          · exact ⟨[b, u, k₁, k₂, k₃, k₄], rfl⟩
          · exact List.suffix_refl _
      · exact List.suffix_refl _
  · exact List.suffix_refl _

lemma staysIn_readUnitEscape (cs : List Char) : StaysIn cs (readUnitEscape cs) := by
  rw [readUnitEscape.eq_def]
  split
  · next u h₁ h₂ h₃ h₄ more =>
      have hmore : more <:+ u :: h₁ :: h₂ :: h₃ :: h₄ :: more := ⟨[u, h₁, h₂, h₃, h₄], rfl⟩
      split
      · trivial
      · split
        · trivial
        · split
          · exact ((staysIn_readLowUnit more).of_suffix hmore).bind fun _ _ hrest => hrest
          · exact hmore
  · trivial

lemma staysIn_readChar (start cs : List Char) : StaysIn cs (readChar start cs) := by
  rw [readChar.eq_def]
  split
  · trivial
  · next c rest =>
      have hrest : rest <:+ c :: rest := List.suffix_cons c rest
      split
      · exact hrest
      · split
        · split
          · trivial
          · next e rest' =>
              split
              · exact ((staysIn_readUnitEscape _).of_suffix hrest).bind fun _ _ hout => hout
              · split
                · trivial
                · exact (List.suffix_cons e rest').trans hrest
        · split
          · trivial
          · exact hrest

lemma staysIn_readCharsUpTo (start : List Char) (count : Nat) (cs : List Char) :
    StaysIn cs (readCharsUpTo start count cs) := by
  induction count generalizing cs with
  | zero => trivial
  | succ count ih =>
      rw [readCharsUpTo]
      refine (staysIn_readChar start cs).bind fun c rest hrest => ?_
      cases c with
      | none => exact hrest
      | some c => exact ((ih rest).of_suffix hrest).bind fun _ _ hout => hout

lemma staysIn_readString (start cs : List Char) : StaysIn cs (readString start cs) :=
  staysIn_readCharsUpTo start _ cs

/-! ### Numbers -/

lemma spanDigits_spec (cs : List Char) : (spanDigits cs).1 ++ (spanDigits cs).2 = cs ∧
    ∀ d ∈ (spanDigits cs).1, Text.isAsciiDigit d = true :=
  ⟨List.takeWhile_append_dropWhile, fun _ => List.mem_takeWhile_imp⟩

/-- The whole part of a number stands in front of the rest, and it is made of digits. -/
lemma readWhole_spec (cs : List Char) : (readWhole cs).1 ++ (readWhole cs).2 = cs ∧
    ∀ d ∈ (readWhole cs).1, Text.isAsciiDigit d = true := by
  rw [readWhole.eq_def]
  split
  · exact ⟨rfl, List.forall_mem_singleton.mpr rfl⟩
  · exact spanDigits_spec cs

lemma spanDigits_suffix (cs : List Char) : (spanDigits cs).2 <:+ cs := List.dropWhile_suffix _

lemma readFraction_suffix (cs : List Char) : (readFraction cs).2 <:+ cs := by
  rw [readFraction.eq_def]
  split
  · next rest =>
      dsimp only
      split
      · exact List.suffix_refl _
      · exact (spanDigits_suffix rest).trans (List.suffix_cons _ rest)
  · exact List.suffix_refl _

lemma readExponent_suffix (cs : List Char) : (readExponent cs).2 <:+ cs := by
  rw [readExponent.eq_def]
  split
  · next c rest =>
      split
      · -- with either sign, or with none
        have hdigits : ∀ (exponent : List Char → Option Int) (unsigned : List Char),
            unsigned <:+ c :: rest → (if (spanDigits unsigned).1 = [] then (none, c :: rest)
              else (exponent (spanDigits unsigned).1, (spanDigits unsigned).2)).2 <:+ c :: rest := by
          intro exponent unsigned hunsigned
          split
          · exact List.suffix_refl _
          · exact (spanDigits_suffix unsigned).trans hunsigned
        dsimp only
        split
        · next r => exact hdigits (fun ds => some (-digitsValue ds)) r ⟨[c, '-'], rfl⟩
        · next r => exact hdigits (fun ds => some (digitsValue ds)) r ⟨[c, '+'], rfl⟩
        · exact hdigits (fun ds => some (digitsValue ds)) rest (List.suffix_cons c rest)
      · exact List.suffix_refl _
  · exact List.suffix_refl _

/-- A number that is not read is a whole number of too many digits. -/
lemma numberOf_eq_error {negative : Bool} {whole fraction : List Char} {exponent : Option Int}
    {e : Stop} (h : numberOf negative whole fraction exponent = .error e) :
    digitLimit < whole.length ∧ e = .longNumber whole.length := by
  rw [numberOf] at h
  split at h
  · split at h
    · next hmany => exact ⟨hmany, (Except.error.inj h).symm⟩
    · cases h
  · cases h

lemma staysIn_readNumber (cs : List Char) : StaysIn cs (readNumber cs) := by
  have hnumber : ∀ negative unsigned, unsigned <:+ cs → StaysIn cs
      (if (readWhole unsigned).1 = [] then .error (.fault .valueExpected cs)
        else (numberOf negative (readWhole unsigned).1 (readFraction (readWhole unsigned).2).1
          (readExponent (readFraction (readWhole unsigned).2).2).1).map
            (·, (readExponent (readFraction (readWhole unsigned).2).2).2)) := by
    intro negative unsigned hunsigned
    obtain ⟨hsplit, hdigits⟩ := readWhole_spec unsigned
    split
    · trivial
    · generalize hread : numberOf negative (readWhole unsigned).1 _ _ = number
      cases number with
      | error e =>
          obtain ⟨hmany, rfl⟩ := numberOf_eq_error hread
          have hrun : (readWhole unsigned).1 <:+: unsigned := ⟨[], (readWhole unsigned).2, hsplit⟩
          exact ⟨hmany, _, hrun.trans hunsigned.isInfix, rfl, hdigits⟩
      | ok n =>
          have hafter : (readWhole unsigned).2 <:+ unsigned := ⟨_, hsplit⟩
          exact (((readExponent_suffix _).trans (readFraction_suffix _)).trans hafter).trans
            hunsigned
  rw [readNumber.eq_def]
  dsimp only
  split
  · exact hnumber true _ (List.suffix_cons _ _)
  · exact hnumber false _ (List.suffix_refl _)

lemma staysIn_readScalar (cs : List Char) : StaysIn cs (readScalar cs) := by
  rw [readScalar.eq_def]
  split
  case h_1 rest => exact ⟨['n', 'u', 'l', 'l'], rfl⟩
  case h_2 rest => exact ⟨['t', 'r', 'u', 'e'], rfl⟩
  case h_3 rest => exact ⟨['f', 'a', 'l', 's', 'e'], rfl⟩
  case h_4 rest => exact ⟨['N', 'a', 'N'], rfl⟩
  case h_5 rest => exact ⟨['I', 'n', 'f', 'i', 'n', 'i', 't', 'y'], rfl⟩
  case h_6 rest => exact ⟨['-', 'I', 'n', 'f', 'i', 'n', 'i', 't', 'y'], rfl⟩
  case h_7 => exact staysIn_readNumber cs

/-! ### Values -/

section Values

variable {fuel : Nat} (hvalue : ∀ cs, StaysIn cs (readValue fuel cs))
  (hitems : ∀ cs, StaysIn cs (readItems fuel cs)) (hpairs : ∀ cs, StaysIn cs (readPairs fuel cs))

include hitems hpairs in
lemma staysIn_readValue_succ (cs : List Char) : StaysIn cs (readValue (fuel + 1) cs) := by
  rw [readValue.eq_def]
  dsimp only
  split
  · trivial
  · next c rest =>
      have hrest : rest <:+ c :: rest := List.suffix_cons c rest
      have hinner : skipSpace rest <:+ c :: rest := (skipSpace_suffix rest).trans hrest
      split
      · exact ((staysIn_readString _ rest).of_suffix hrest).bind fun _ _ hout => hout
      · split
        · split
          · next out hclosed => exact (List.suffix_cons _ out).trans (hclosed ▸ hinner)
          · exact ((hitems _).of_suffix hinner).bind fun _ _ hout => hout
        · split
          · split
            · next out hclosed => exact (List.suffix_cons _ out).trans (hclosed ▸ hinner)
            · exact ((hpairs _).of_suffix hinner).bind fun _ _ hout => hout
          · exact staysIn_readScalar _

include hvalue hitems in
lemma staysIn_readItems_succ (cs : List Char) : StaysIn cs (readItems (fuel + 1) cs) := by
  rw [readItems]
  refine (hvalue cs).bind fun x afterItem hafter => ?_
  have hspace := (skipSpace_suffix afterItem).trans hafter
  dsimp only
  split
  · next out hout => exact (List.suffix_cons _ out).trans (hout ▸ hspace)
  · next next hnext =>
      have hlater : skipSpace next <:+ cs :=
        (skipSpace_suffix next).trans ((List.suffix_cons _ next).trans (hnext ▸ hspace))
      exact ((hitems _).of_suffix hlater).bind fun _ _ hout => hout
  · trivial

include hvalue hpairs in
lemma staysIn_readPairs_succ (cs : List Char) : StaysIn cs (readPairs (fuel + 1) cs) := by
  rw [readPairs.eq_def]
  dsimp only
  split
  · next rest =>
      refine ((staysIn_readString _ rest).of_suffix (List.suffix_cons _ rest)).bind
        fun key afterKey hkey => ?_
      have hcolon := (skipSpace_suffix afterKey).trans hkey
      dsimp only
      split
      · next afterColon heq =>
          have hafter : skipSpace afterColon <:+ '"' :: rest :=
            (skipSpace_suffix afterColon).trans
              ((List.suffix_cons _ afterColon).trans (heq ▸ hcolon))
          refine ((hvalue _).of_suffix hafter).bind fun x afterValue hx => ?_
          have hspace := (skipSpace_suffix afterValue).trans hx
          dsimp only
          split
          · next out hout => exact (List.suffix_cons _ out).trans (hout ▸ hspace)
          · next next hnext =>
              have hlater : skipSpace next <:+ '"' :: rest :=
                (skipSpace_suffix next).trans ((List.suffix_cons _ next).trans (hnext ▸ hspace))
              exact ((hpairs _).of_suffix hlater).bind fun _ _ hout => hout
          · trivial
      · trivial
  · trivial

end Values

/-- **The readers of values stay in their texts.** -/
theorem staysIn_readValue (fuel : Nat) : (∀ cs, StaysIn cs (readValue fuel cs)) ∧
    (∀ cs, StaysIn cs (readItems fuel cs)) ∧ ∀ cs, StaysIn cs (readPairs fuel cs) := by
  induction fuel with
  | zero =>
      refine ⟨fun cs => ?_, fun cs => ?_, fun cs => ?_⟩
      · rw [readValue]
        trivial
      · rw [readItems]
        trivial
      · rw [readPairs]
        trivial
  | succ fuel ih =>
      obtain ⟨hvalue, hitems, hpairs⟩ := ih
      exact ⟨staysIn_readValue_succ hitems hpairs, staysIn_readItems_succ hvalue hitems,
        staysIn_readPairs_succ hvalue hpairs⟩

/-! ### Whole texts -/

/-- **Reading stops at a whole number of too many digits only if the text has them.** -/
theorem hasRun_of_readChars (h : readChars cs = .error (.longNumber digits)) :
    HasRun cs digits := by
  have hall : readAll cs = .error (.longNumber digits) := by
    rw [readChars] at h
    split at h <;> cases h
    assumption
  have hvalue := (staysIn_readValue (2 * cs.length + 2)).1 (skipSpace cs)
  rw [readAll.eq_def] at hall
  split at hall
  · cases hall
  · rcases bind_eq_error_iff.mp hall with hread | ⟨⟨x, rest⟩, -, hextra⟩
    · rw [hread] at hvalue
      exact HasRun.of_suffix hvalue (skipSpace_suffix cs)
    · dsimp only at hextra
      split at hextra <;> cases hextra

/-! ### Values with long numbers -/

section Written

variable {sort : Int → Prop}

mutual

/-- **Reading stops in the text of a value with a long number**, if what follows does not go on with a
number. -/
theorem readValue_written_long : ∀ {v : Json} {fuel : Nat} {rest : List Char}, v.IsBuilt sort →
    v.holdsLongNumber = true → steps v ≤ fuel → EndsNumber rest →
      ∃ digits, readValue fuel (v.writtenChars ++ rest) = .error (.longNumber digits)
  | .null, _, _, _, hlong, _, _ | .bool _, _, _, _, hlong, _, _ | .float _, _, _, _, hlong, _, _
  | .str _, _, _, _, hlong, _, _ | .arr [], _, _, _, hlong, _, _ | .obj [], _, _, _, hlong, _, _ =>
      nomatch hlong
  | .int n, fuel, rest, _, hlong, hfuel, hrest => by
      obtain ⟨m, rfl⟩ := exists_fuel hfuel
      have hn : ¬ IsShort n := by
        rw [← isLong_eq_false_iff, Bool.not_eq_false]
        exact hlong
      rw [writtenChars, readValue_intText]
      exact ⟨_, readNumber_intText_of_not_isShort hrest hn⟩
  | .arr (x :: xs), fuel, rest, h, hlong, hfuel, _ => by
      obtain ⟨n, rfl⟩ := exists_fuel hfuel
      rw [steps] at hfuel
      cases h with
      | arr hitems =>
          obtain ⟨digits, hread⟩ := @readItems_written_long (x :: xs) n rest hitems hlong (by omega)
          refine ⟨digits, ?_⟩
          rw [readValue_written_arr (hitems x (List.mem_cons_self ..)), hread]
          rfl
  | .obj ((key, x) :: xs), fuel, rest, h, hlong, hfuel, _ => by
      obtain ⟨n, rfl⟩ := exists_fuel hfuel
      rw [steps] at hfuel
      cases h with
      | obj hkeys hfields =>
          obtain ⟨digits, hread⟩ := @readPairs_written_long ((key, x) :: xs) n rest hfields hlong
            (by omega)
          refine ⟨digits, ?_⟩
          rw [readValue_written_obj, hread]
          rfl

/-- **Reading stops in the text of items** if there is a long number in one of them. -/
theorem readItems_written_long : ∀ {items : List Json} {fuel : Nat} {rest : List Char},
    (∀ x ∈ items, IsBuilt sort x) → itemsHoldLongNumber items = true →
      stepsOfItems items ≤ fuel →
        ∃ digits, readItems fuel (writtenItems items ++ ']' :: rest) = .error (.longNumber digits)
  | [], _, _, _, hlong, _ => nomatch hlong
  | [x], fuel, rest, h, hlong, hfuel => by
      rw [stepsOfItems, stepsOfItems] at hfuel
      obtain ⟨n, rfl⟩ : ∃ n, fuel = n + 1 := ⟨fuel - 1, by omega⟩
      rw [itemsHoldLongNumber, itemsHoldLongNumber, Bool.or_false] at hlong
      obtain ⟨digits, hx⟩ := @readValue_written_long x n (']' :: rest)
        (h x (List.mem_cons_self ..)) hlong (by omega) (endsNumber_cons (by decide))
      refine ⟨digits, ?_⟩
      rw [writtenItems, readItems, hx]
      rfl
  | x :: y :: ys, fuel, rest, h, hlong, hfuel => by
      rw [stepsOfItems] at hfuel
      obtain ⟨n, rfl⟩ : ∃ n, fuel = n + 1 := ⟨fuel - 1, by omega⟩
      rw [writtenItems_cons_cons]
      cases hfirst : x.holdsLongNumber with
      | true =>
          obtain ⟨digits, hx⟩ := @readValue_written_long x n
            (',' :: ' ' :: (writtenItems (y :: ys) ++ ']' :: rest)) (h x (List.mem_cons_self ..))
            hfirst (by omega) (endsNumber_cons (by decide))
          refine ⟨digits, ?_⟩
          rw [readItems, hx]
          rfl
      | false =>
          have hx := @readValue_written x n (',' :: ' ' :: (writtenItems (y :: ys) ++ ']' :: rest))
            ((h x (List.mem_cons_self ..)).isRestorable_iff.mpr hfirst) (by omega)
            (endsNumber_cons (by decide))
          rw [itemsHoldLongNumber, hfirst, Bool.false_or] at hlong
          obtain ⟨digits, hrest⟩ := @readItems_written_long (y :: ys) n rest
            (fun z hz => h z (List.mem_cons_of_mem _ hz)) hlong (by omega)
          refine ⟨digits, ?_⟩
          rw [readItems_comma hx, skipSpace_writtenItems (h y (by simp)), hrest]
          rfl

/-- **Reading stops in the text of entries** if there is a long number in a value of one of them. -/
theorem readPairs_written_long : ∀ {fields : List (String × Json)} {fuel : Nat}
    {rest : List Char}, (∀ e ∈ fields, IsBuilt sort e.2) → fieldsHoldLongNumber fields = true →
      stepsOfFields fields ≤ fuel →
        ∃ digits, readPairs fuel (writtenFields fields ++ '}' :: rest)
          = .error (.longNumber digits)
  | [], _, _, _, hlong, _ => nomatch hlong
  | [(key, x)], fuel, rest, h, hlong, hfuel => by
      rw [stepsOfFields, stepsOfFields] at hfuel
      obtain ⟨n, rfl⟩ : ∃ n, fuel = n + 1 := ⟨fuel - 1, by omega⟩
      rw [fieldsHoldLongNumber, fieldsHoldLongNumber, Bool.or_false] at hlong
      have hbuilt : x.IsBuilt sort := h (key, x) (List.mem_cons_self ..)
      obtain ⟨digits, hx⟩ := @readValue_written_long x n ('}' :: rest) hbuilt hlong (by omega)
        (endsNumber_cons (by decide))
      refine ⟨digits, ?_⟩
      rw [writtenFields_singleton, readPairs_key hbuilt, hx]
      rfl
  | (key, x) :: e :: es, fuel, rest, h, hlong, hfuel => by
      rw [stepsOfFields] at hfuel
      obtain ⟨n, rfl⟩ : ∃ n, fuel = n + 1 := ⟨fuel - 1, by omega⟩
      have hbuilt : x.IsBuilt sort := h (key, x) (List.mem_cons_self ..)
      rw [writtenFields_cons_cons]
      cases hfirst : x.holdsLongNumber with
      | true =>
          obtain ⟨digits, hx⟩ := @readValue_written_long x n
            (',' :: ' ' :: (writtenFields (e :: es) ++ '}' :: rest)) hbuilt hfirst (by omega)
            (endsNumber_cons (by decide))
          refine ⟨digits, ?_⟩
          rw [readPairs_key hbuilt, hx]
          rfl
      | false =>
          have hrestorable := hbuilt.isRestorable_iff.mpr hfirst
          have hx := @readValue_written x n
            (',' :: ' ' :: (writtenFields (e :: es) ++ '}' :: rest)) hrestorable (by omega)
            (endsNumber_cons (by decide))
          rw [fieldsHoldLongNumber, hfirst, Bool.false_or] at hlong
          obtain ⟨digits, hrest⟩ := @readPairs_written_long (e :: es) n rest
            (fun z hz => h z (List.mem_cons_of_mem _ hz)) hlong (by omega)
          refine ⟨digits, ?_⟩
          rw [readPairs_comma hrestorable hx, skipSpace_writtenFields, hrest]
          rfl

end

/-- **A value with a long number is not read back from its text**: reading stops at such a number. -/
theorem read_written_long {v : Json} (h : v.IsBuilt sort) (hlong : v.holdsLongNumber = true) :
    ∃ digits, read v.written = .error (.longNumber digits) := by
  have hfuel := steps_le h
  obtain ⟨digits, hvalue⟩ := @readValue_written_long sort v (2 * v.writtenChars.length + 2) [] h
    hlong (by omega) (by simp [EndsNumber])
  rw [List.append_nil] at hvalue
  have hall : readAll v.writtenChars = .error (.longNumber digits) := by
    rw [readAll_written h, hvalue]
    rfl
  refine ⟨digits, ?_⟩
  rw [read, written, String.toList_ofList, readChars, hall]

/-- **A value is read back from its text exactly if it holds no number of too many digits.** -/
theorem read_written_eq_ok_iff {v : Json} (h : v.IsBuilt sort) :
    read v.written = .ok v ↔ v.holdsLongNumber = false := by
  refine ⟨fun hread => ?_, fun hshort => read_written (h.isRestorable_iff.mpr hshort)⟩
  by_contra hlong
  obtain ⟨digits, hstop⟩ := read_written_long h (Bool.not_eq_false _ ▸ hlong)
  rw [hread] at hstop
  cases hstop

end Written

end StyleTokens.Json
