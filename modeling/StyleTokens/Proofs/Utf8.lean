import StyleTokens.File.Utf8
import StyleTokens.Proofs.Basic

/-!
Bytes that are text.

* `Utf8.IsSequence`: the bytes of one character, and its number;
* `Utf8.isSequence_encodeChar`, `Utf8.IsSequence.encodeChar_ofNat`: every character has such bytes,
  and such bytes are those of a character;
* `Utf8.decode_eq_ok_iff`: bytes are read as a text exactly if they are the bytes of the text.
-/

namespace StyleTokens.Utf8

open String (utf8EncodeChar)

variable {a b c d : UInt8} {n : Nat}

/-! ### The bytes of one character -/

/-- The bytes of one character, the first of which tells how many there are, and the number that
they make up. -/
inductive IsSequence : List UInt8 → Nat → Prop where
  | one {a : UInt8} : a.toNat < 0x80 → IsSequence [a] a.toNat
  | two {a b : UInt8} : 0xC2 ≤ a.toNat → a.toNat < 0xE0 → isContinuation b = true →
      IsSequence [a, b] (a.toNat % 0x20 * 0x40 + low b)
  | three {a b c : UInt8} : 0xE0 ≤ a.toNat → a.toNat < 0xF0 → suits a b = true →
      isContinuation c = true →
      IsSequence [a, b, c] ((a.toNat % 0x10 * 0x40 + low b) * 0x40 + low c)
  | four {a b c d : UInt8} : 0xF0 ≤ a.toNat → a.toNat < 0xF5 → suits a b = true →
      isContinuation c = true → isContinuation d = true →
      IsSequence [a, b, c, d] (((a.toNat % 8 * 0x40 + low b) * 0x40 + low c) * 0x40 + low d)

lemma isContinuation_iff : isContinuation b = true ↔ 0x80 ≤ b.toNat ∧ b.toNat < 0xC0 := by
  simp [isContinuation]

lemma suits_iff : suits a b = true ↔ (0x80 ≤ b.toNat ∧ b.toNat < 0xC0) ∧
    (a.toNat = 0xE0 → 0xA0 ≤ b.toNat) ∧ (a.toNat = 0xED → b.toNat < 0xA0) ∧
    (a.toNat = 0xF0 → 0x90 ≤ b.toNat) ∧ (a.toNat = 0xF4 → b.toNat < 0x90) := by
  simp only [suits, Bool.and_eq_true, isContinuation_iff, Bool.or_eq_true, bne_iff_ne,
    decide_eq_true_eq, ← imp_iff_not_or, ne_eq, and_assoc]

lemma toNat_ofNat (h : n < 0x100) : (UInt8.ofNat n).toNat = n := UInt8.toNat_ofNat_of_lt' h

lemma ofNat_eq (h : n = a.toNat) : UInt8.ofNat n = a := by rw [h, UInt8.ofNat_toNat]

section OfNumber

variable {v : Nat}

lemma isSequence_one (h : v < 0x80) : IsSequence [UInt8.ofNat v] v := by
  have ha : (UInt8.ofNat v).toNat = v := toNat_ofNat (by omega)
  have hone : IsSequence [UInt8.ofNat v] (UInt8.ofNat v).toNat := .one (by omega)
  rwa [ha] at hone

lemma isSequence_two (h : 0x80 ≤ v) (h' : v < 0x800) :
    IsSequence [UInt8.ofNat (v / 64 % 32 + 192), UInt8.ofNat (v % 64 + 128)] v := by
  generalize ha' : UInt8.ofNat (v / 64 % 32 + 192) = a
  generalize hb' : UInt8.ofNat (v % 64 + 128) = b
  have ha : a.toNat = v / 64 % 32 + 192 := ha' ▸ toNat_ofNat (by omega)
  have hb : b.toNat = v % 64 + 128 := hb' ▸ toNat_ofNat (by omega)
  have hnumber : a.toNat % 0x20 * 0x40 + low b = v := by rw [low]; omega
  exact hnumber ▸ .two (by omega) (by omega) (isContinuation_iff.mpr (by omega))

/-- The numbers in between belong to no characters. -/
lemma isSequence_three (h : 0x800 ≤ v) (h' : v < 0x10000) (hvalid : v.isValidChar) :
    IsSequence [UInt8.ofNat (v / 4096 % 16 + 224), UInt8.ofNat (v / 64 % 64 + 128),
      UInt8.ofNat (v % 64 + 128)] v := by
  generalize ha' : UInt8.ofNat (v / 4096 % 16 + 224) = a
  generalize hb' : UInt8.ofNat (v / 64 % 64 + 128) = b
  generalize hc' : UInt8.ofNat (v % 64 + 128) = c
  have ha : a.toNat = v / 4096 % 16 + 224 := ha' ▸ toNat_ofNat (by omega)
  have hb : b.toNat = v / 64 % 64 + 128 := hb' ▸ toNat_ofNat (by omega)
  have hc : c.toNat = v % 64 + 128 := hc' ▸ toNat_ofNat (by omega)
  have hnumber : (a.toNat % 0x10 * 0x40 + low b) * 0x40 + low c = v := by
    rw [low, low]
    omega
  exact hnumber ▸ .three (by omega) (by omega) (suits_iff.mpr (by omega))
    (isContinuation_iff.mpr (by omega))

lemma isSequence_four (h : 0x10000 ≤ v) (h' : v < 0x110000) :
    IsSequence [UInt8.ofNat (v / 262144 % 8 + 240), UInt8.ofNat (v / 4096 % 64 + 128),
      UInt8.ofNat (v / 64 % 64 + 128), UInt8.ofNat (v % 64 + 128)] v := by
  generalize ha' : UInt8.ofNat (v / 262144 % 8 + 240) = a
  generalize hb' : UInt8.ofNat (v / 4096 % 64 + 128) = b
  generalize hc' : UInt8.ofNat (v / 64 % 64 + 128) = c
  generalize hd' : UInt8.ofNat (v % 64 + 128) = d
  have ha : a.toNat = v / 262144 % 8 + 240 := ha' ▸ toNat_ofNat (by omega)
  have hb : b.toNat = v / 4096 % 64 + 128 := hb' ▸ toNat_ofNat (by omega)
  have hc : c.toNat = v / 64 % 64 + 128 := hc' ▸ toNat_ofNat (by omega)
  have hd : d.toNat = v % 64 + 128 := hd' ▸ toNat_ofNat (by omega)
  have hnumber : ((a.toNat % 8 * 0x40 + low b) * 0x40 + low c) * 0x40 + low d = v := by
    rw [low, low, low]
    omega
  exact hnumber ▸ .four (by omega) (by omega) (suits_iff.mpr (by omega))
    (isContinuation_iff.mpr (by omega)) (isContinuation_iff.mpr (by omega))

end OfNumber

/-- **Every character has the bytes of one.** -/
theorem isSequence_encodeChar (char : Char) : IsSequence (utf8EncodeChar char) char.toNat := by
  have hvalid : char.toNat.isValidChar := char.valid
  have hval : char.val.toNat = char.toNat := rfl
  rw [utf8EncodeChar, hval]
  split
  · exact isSequence_one (by omega)
  · split
    · exact isSequence_two (by omega) (by omega)
    · split
      · exact isSequence_three (by omega) (by omega) hvalid
      · exact isSequence_four (by omega) (by omega)

/-- The bytes of the character with a number. -/
lemma encodeChar_ofNat (h : n.isValidChar) : utf8EncodeChar (Char.ofNat n)
    = if n ≤ 127 then [UInt8.ofNat n]
      else if n ≤ 2047 then [UInt8.ofNat (n / 64 % 32 + 192), UInt8.ofNat (n % 64 + 128)]
      else if n ≤ 65535 then
        [UInt8.ofNat (n / 4096 % 16 + 224), UInt8.ofNat (n / 64 % 64 + 128),
          UInt8.ofNat (n % 64 + 128)]
      else
        [UInt8.ofNat (n / 262144 % 8 + 240), UInt8.ofNat (n / 4096 % 64 + 128),
          UInt8.ofNat (n / 64 % 64 + 128), UInt8.ofNat (n % 64 + 128)] := by
  have hchar : Char.ofNat n = Char.ofNatAux n h := dif_pos h
  have hval : (Char.ofNatAux n h).val.toNat = n := rfl
  rw [hchar, utf8EncodeChar, hval]

/-- **The bytes of one character are those of the character with their number.** -/
theorem IsSequence.encodeChar_ofNat {bytes : List UInt8} (h : IsSequence bytes n) :
    utf8EncodeChar (Char.ofNat n) = bytes := by
  cases h with
  | one ha =>
      rw [Utf8.encodeChar_ofNat (.inl (by omega)), if_pos (by omega), UInt8.ofNat_toNat]
  | @two a b ha ha' hb =>
      rw [isContinuation_iff] at hb
      rw [low, Utf8.encodeChar_ofNat (.inl (by omega)), if_neg (by omega), if_pos (by omega),
        ofNat_eq (a := a) (by omega), ofNat_eq (a := b) (by omega)]
  | @three a b c ha ha' hb hc =>
      rw [suits_iff] at hb
      rw [isContinuation_iff] at hc
      -- the second byte keeps the number out of the range that belongs to no characters
      have hvalid :
          ((a.toNat % 0x10 * 0x40 + b.toNat % 0x40) * 0x40 + c.toNat % 0x40).isValidChar := by
        rw [Nat.isValidChar]
        omega
      rw [low, low, Utf8.encodeChar_ofNat hvalid, if_neg (by omega), if_neg (by omega),
        if_pos (by omega), ofNat_eq (a := a) (by omega), ofNat_eq (a := b) (by omega),
        ofNat_eq (a := c) (by omega)]
  | @four a b c d ha ha' hb hc hd =>
      rw [suits_iff] at hb
      rw [isContinuation_iff] at hc hd
      rw [low, low, low, Utf8.encodeChar_ofNat (.inr (by omega)), if_neg (by omega),
        if_neg (by omega), if_neg (by omega), ofNat_eq (a := a) (by omega),
        ofNat_eq (a := b) (by omega), ofNat_eq (a := c) (by omega), ofNat_eq (a := d) (by omega)]

/-! ### Text -/

/-- The bytes of one character are read as that character. -/
lemma IsSequence.decodeFrom_append {bytes : List UInt8} (h : IsSequence bytes n) (position : Nat)
    (rest : List UInt8) : decodeFrom position (bytes ++ rest)
      = (decodeFrom (position + bytes.length) rest).map (Char.ofNat n :: ·) := by
  cases h with
  | one ha =>
      rw [List.singleton_append, decodeFrom.eq_def]
      dsimp only
      rw [if_pos ha]
      rfl
  | two ha ha' hb =>
      rw [List.cons_append, List.singleton_append, decodeFrom.eq_def]
      dsimp only
      rw [if_neg (by omega), if_neg (by omega), if_pos ha', if_pos hb]
      rfl
  | three ha ha' hb hc =>
      rw [List.cons_append, List.cons_append, List.singleton_append, decodeFrom.eq_def]
      dsimp only
      rw [if_neg (by omega), if_neg (by omega), if_neg (by omega), if_pos ha', if_pos hb, if_pos hc]
      rfl
  | four ha ha' hb hc hd =>
      rw [List.cons_append, List.cons_append, List.cons_append, List.singleton_append,
        decodeFrom.eq_def]
      dsimp only
      rw [if_neg (by omega), if_neg (by omega), if_neg (by omega), if_neg (by omega), if_pos ha',
        if_pos hb, if_pos hc, if_pos hd]
      rfl

/-- Bytes that are read begin with those of one character, unless there are none. -/
lemma exists_isSequence_of_decodeFrom {position : Nat} {rest : List UInt8} {cs : List Char}
    (h : decodeFrom position (a :: rest) = .ok cs) :
    ∃ bytes n rest', a :: rest = bytes ++ rest' ∧ IsSequence bytes n := by
  rw [decodeFrom.eq_def] at h
  dsimp only at h
  -- by the class of the first byte: one, two, three or four bytes
  split at h
  · next ha => exact ⟨[a], _, rest, rfl, .one ha⟩
  · split at h
    · cases h
    · split at h
      · split at h
        · split at h
          · next hb => exact ⟨_, _, _, rfl, .two (by omega) (by omega) hb⟩
          · cases h
        · cases h
      · split at h
        · split at h
          · split at h
            · next hb =>
                split at h
                · next hc => exact ⟨_, _, _, rfl, .three (by omega) (by omega) hb hc⟩
                · cases h
            · cases h
          · split at h <;> cases h
          · cases h
        · split at h
          · split at h
            · split at h
              · next hb =>
                  split at h
                  · next hc =>
                      split at h
                      · next hd => exact ⟨_, _, _, rfl, .four (by omega) (by omega) hb hc hd⟩
                      · cases h
                  · cases h
              · cases h
            · split at h
              · split at h <;> cases h
              · cases h
            · split at h <;> cases h
            · cases h
          · cases h

lemma IsSequence.ne_nil {bytes : List UInt8} (h : IsSequence bytes n) : bytes ≠ [] := by
  cases h <;> simp

lemma decodeFrom_eq_ok_iff {position : Nat} {bytes : List UInt8} {cs : List Char} :
    decodeFrom position bytes = .ok cs ↔ bytes = cs.flatMap utf8EncodeChar := by
  constructor
  · -- on the number of bytes, since every character has at least one
    intro h
    induction hlength : bytes.length using Nat.strongRecOn generalizing position bytes cs with
    | _ length ih =>
        cases bytes with
        | nil =>
            rw [decodeFrom] at h
            cases h
            rfl
        | cons a rest =>
            obtain ⟨front, n, back, hsplit, hfront⟩ := exists_isSequence_of_decodeFrom h
            rw [hsplit] at h hlength ⊢
            rw [hfront.decodeFrom_append] at h
            obtain ⟨cs', hback, rfl⟩ := exists_of_map_eq_ok h
            have hshorter : back.length < length := by
              have := List.length_pos_of_ne_nil hfront.ne_nil
              rw [List.length_append] at hlength
              omega
            rw [List.flatMap_cons, hfront.encodeChar_ofNat, ← ih _ hshorter hback rfl]
  · rintro rfl
    induction cs generalizing position with
    | nil => rfl
    | cons char cs ih =>
        rw [List.flatMap_cons, (isSequence_encodeChar char).decodeFrom_append, ih,
          Char.ofNat_toNat]
        rfl

/-- **Bytes are read as a text exactly if they are the bytes of the text.** -/
theorem decode_eq_ok_iff {bytes : List UInt8} {cs : List Char} :
    decode bytes = .ok cs ↔ bytes = encode (String.ofList cs) := by
  rw [decode, decodeFrom_eq_ok_iff, encode, String.toList_ofList]

/-- A text is read from its bytes. -/
lemma decode_encode (s : String) : decode (encode s) = .ok s.toList :=
  decode_eq_ok_iff.mpr (by rw [String.ofList_toList])

/-- A text without carriage returns has no other ends of lines than line feeds. -/
lemma unifyNewlines_eq_self {cs : List Char} (h : '\r' ∉ cs) : unifyNewlines cs = cs := by
  fun_induction unifyNewlines cs with
  | case1 => rfl
  | case2 => exact absurd (List.mem_cons_self ..) h
  | case3 => exact absurd (List.mem_cons_self ..) h
  | case4 => exact absurd (List.mem_cons_self ..) h
  | case5 c rest _ _ _ ih => rw [ih fun hmem => h (List.mem_cons_of_mem c hmem)]

end StyleTokens.Utf8
