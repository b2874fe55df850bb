import StyleTokens.Json.Reader
import StyleTokens.Proofs.Basic
import StyleTokens.Proofs.Groups

/-!
The keys of objects that are read.

* `Fields.nodup_keys_ofPairs`: entries as they are read have distinct keys;
* `Json.hasDistinctKeys_of_readValue`: so have all objects inside a value that is read, by induction on
  the steps of the reader;
* `distinctKeys_of_read`: a whole text.
-/

namespace StyleTokens

/-! ### Entries -/

namespace Fields

/-- The keys after a key is given a value: one more at the end, unless it was there. -/
lemma keys_put (key : String) (x : Json) (fields : Fields) :
    (put key x fields).map Prod.fst
      = if key ∈ fields.map Prod.fst then fields.map Prod.fst
        else fields.map Prod.fst ++ [key] := by
  refine keys_of_put (put key x) rfl (fun entry rest => ?_) fields
  rw [put]
  split
  · next h => rw [List.map_cons, h]
  · rfl

/-- No key comes twice in entries that are put over others. -/
lemma nodup_keys_merge {fields : Fields} (h : (fields.map Prod.fst).Nodup) (later : Fields) :
    ((merge fields later).map Prod.fst).Nodup :=
  nodup_keys_foldl (fun e => keys_put e.1 e.2) later h

/-- A value after a key is given one is that one, or was there. -/
lemma mem_values_put {key : String} {x : Json} {fields : Fields} {e : String × Json}
    (h : e ∈ put key x fields) : e.2 = x ∨ ∃ e' ∈ fields, e.2 = e'.2 := by
  induction fields with
  | nil =>
      rw [put, List.mem_singleton] at h
      exact .inl (by rw [h])
  | cons entry rest ih =>
      obtain ⟨k, y⟩ := entry
      rw [put] at h
      split at h
      · rcases List.mem_cons.mp h with rfl | h
        · exact .inl rfl
        · exact .inr ⟨e, by simp [h], rfl⟩
      · rcases List.mem_cons.mp h with rfl | h
        · exact .inr ⟨_, List.mem_cons_self .., rfl⟩
        · rcases ih h with hx | ⟨e', he', hx⟩
          · exact .inl hx
          · exact .inr ⟨e', by simp [he'], hx⟩

/-- A value in entries that are put over others stands in one of both. -/
lemma mem_values_merge {later fields : Fields} {e : String × Json} (h : e ∈ merge fields later) :
    (∃ e' ∈ fields, e.2 = e'.2) ∨ ∃ e' ∈ later, e.2 = e'.2 := by
  induction later generalizing fields with
  | nil => exact .inl ⟨e, h, rfl⟩
  | cons entry later ih =>
      rcases ih h with ⟨e', he', hx⟩ | ⟨e', he', hx⟩
      · rcases mem_values_put he' with hy | ⟨e'', he'', hy⟩
        · exact .inr ⟨entry, List.mem_cons_self .., hx.trans hy⟩
        · exact .inl ⟨e'', he'', hx.trans hy⟩
      · exact .inr ⟨e', by simp [he'], hx⟩

/-- No key comes twice in entries as they are read. -/
lemma nodup_keys_ofPairs (pairs : List (String × Json)) : ((ofPairs pairs).map Prod.fst).Nodup :=
  @nodup_keys_merge [] List.nodup_nil pairs

/-- The values in entries as they are read are those that were read. -/
lemma mem_values_ofPairs {pairs : List (String × Json)} {e : String × Json}
    (h : e ∈ ofPairs pairs) : ∃ e' ∈ pairs, e.2 = e'.2 := by
  rcases mem_values_merge h with ⟨e', he', -⟩ | h
  · exact absurd he' (by simp)
  · exact h

end Fields

namespace Json

/-! ### Values -/

variable {cs rest : List Char} {v : Json}

/-- No key comes twice in the object that a value is, and in the groups below it. -/
def HasDistinctKeys : Json → Prop
  | .obj fields => Fields.HasDistinctKeys fields
  | _ => True

/-- What is no object has no keys. -/
lemma hasDistinctKeys_of_fields? (h : v.fields? = none) : v.HasDistinctKeys := by
  cases v with
  | obj fields => exact absurd h (by simp [fields?])
  | _ => trivial

/-- Numbers are no objects. -/
lemma fields?_of_numberOf {negative : Bool} {whole fraction : List Char} {exponent : Option Int}
    (h : numberOf negative whole fraction exponent = .ok v) : v.fields? = none := by
  rw [numberOf] at h
  split at h
  · split at h <;> cases h
    rfl
  · cases h
    rfl

lemma fields?_of_readNumber (h : readNumber cs = .ok (v, rest)) : v.fields? = none := by
  unfold readNumber at h
  split at h
  all_goals
    dsimp only at h
    split at h
    · exact absurd h (by simp)
    · obtain ⟨n, hn, h⟩ := exists_of_map_eq_ok h
      obtain ⟨rfl, -⟩ := Prod.mk.inj h
      exact fields?_of_numberOf hn

/-- Words and numbers are no objects. -/
lemma fields?_of_readScalar (h : readScalar cs = .ok (v, rest)) : v.fields? = none := by
  unfold readScalar at h
  split at h
  case h_7 => exact fields?_of_readNumber h
  all_goals
    obtain ⟨rfl, -⟩ := Prod.mk.inj (Except.ok.inj h)
    rfl

/-- The groups below a value are among those of the object that it is. -/
lemma HasDistinctKeys.nodup_of_mem_groups (h : v.HasDistinctKeys) {g : Fields}
    (hg : g ∈ v.groups) : (g.map Prod.fst).Nodup := by
  cases v with
  | obj fields =>
      rw [groups] at hg
      split at hg
      · exact absurd hg (by simp)
      · exact h g hg
  | _ => exact absurd hg (by simp [groups])

/-- An object of values that have distinct keys. -/
lemma hasDistinctKeys_ofPairs {pairs : List (String × Json)}
    (h : ∀ e ∈ pairs, e.2.HasDistinctKeys) : HasDistinctKeys (.obj (Fields.ofPairs pairs)) := by
  have hroot := Fields.nodup_keys_ofPairs pairs
  refine Fields.forall_mem_groups.mpr ⟨hroot, fun g hg => ?_⟩
  rw [groupsIn_eq_flatMap] at hg
  obtain ⟨e, he, hg⟩ := List.mem_flatMap.mp hg
  obtain ⟨e', he', hx⟩ := Fields.mem_values_ofPairs he
  exact (h e' he').nodup_of_mem_groups (hx ▸ hg)

/-- The entries of an object that is read are values that are read. -/
lemma hasDistinctKeys_of_readPairs {fuel : Nat}
    (hvalue : ∀ {cs v rest}, readValue fuel cs = .ok (v, rest) → v.HasDistinctKeys)
    (hpairs : ∀ {cs pairs rest}, readPairs fuel cs = .ok (pairs, rest) →
      ∀ e ∈ pairs, e.2.HasDistinctKeys)
    {pairs : List (String × Json)} (h : readPairs (fuel + 1) cs = .ok (pairs, rest)) :
    ∀ e ∈ pairs, e.2.HasDistinctKeys := by
  rw [readPairs.eq_def] at h
  dsimp only at h
  split at h
  · obtain ⟨⟨key, afterKey⟩, -, h⟩ := exists_of_bind_eq_ok h
    dsimp only at h
    split at h
    · obtain ⟨⟨x, afterValue⟩, hx, h⟩ := exists_of_bind_eq_ok h
      dsimp only at h
      split at h
      · obtain ⟨rfl, -⟩ := Prod.mk.inj (Except.ok.inj h)
        exact List.forall_mem_singleton.mpr (hvalue hx)
      · obtain ⟨⟨xs, out⟩, hxs, h⟩ := exists_of_bind_eq_ok h
        obtain ⟨rfl, -⟩ := Prod.mk.inj (Except.ok.inj h)
        exact List.forall_mem_cons.mpr ⟨hvalue hx, hpairs hxs⟩
      · exact absurd h (by simp)
    · exact absurd h (by simp)
  · exact absurd h (by simp)

/-- A value that is read has distinct keys if the entries of an object have. -/
lemma hasDistinctKeys_of_readValue_succ {fuel : Nat}
    (hpairs : ∀ {cs pairs rest}, readPairs fuel cs = .ok (pairs, rest) →
      ∀ e ∈ pairs, e.2.HasDistinctKeys)
    (h : readValue (fuel + 1) cs = .ok (v, rest)) : v.HasDistinctKeys := by
  rw [readValue.eq_def] at h
  dsimp only at h
  split at h
  · exact absurd h (by simp)
  · split at h
    · obtain ⟨⟨s, out⟩, -, h⟩ := exists_of_bind_eq_ok h
      obtain ⟨rfl, -⟩ := Prod.mk.inj (Except.ok.inj h)
      trivial
    · split at h
      · split at h
        · obtain ⟨rfl, -⟩ := Prod.mk.inj (Except.ok.inj h)
          trivial
        · obtain ⟨⟨items, out⟩, -, h⟩ := exists_of_bind_eq_ok h
          obtain ⟨rfl, -⟩ := Prod.mk.inj (Except.ok.inj h)
          trivial
      · split at h
        · split at h
          · obtain ⟨rfl, -⟩ := Prod.mk.inj (Except.ok.inj h)
            have hempty : ∀ e ∈ ([] : Fields), e.2.HasDistinctKeys := by simp
            exact hasDistinctKeys_ofPairs hempty
          · obtain ⟨⟨pairs, out⟩, hread, h⟩ := exists_of_bind_eq_ok h
            obtain ⟨rfl, -⟩ := Prod.mk.inj (Except.ok.inj h)
            exact hasDistinctKeys_ofPairs (hpairs hread)
        · exact hasDistinctKeys_of_fields? (fields?_of_readScalar h)

/-- The objects inside a value that is read have distinct keys, and so have those inside the entries
of an object that is read. -/
lemma hasDistinctKeys_of_readValue (fuel : Nat) :
    (∀ {cs v rest}, readValue fuel cs = .ok (v, rest) → v.HasDistinctKeys) ∧
      ∀ {cs pairs rest}, readPairs fuel cs = .ok (pairs, rest) →
        ∀ e ∈ pairs, e.2.HasDistinctKeys := by
  induction fuel with
  | zero =>
      constructor
      · intro cs v rest h
        exact absurd h (by simp [readValue])
      · intro cs pairs rest h
        exact absurd h (by simp [readPairs])
  | succ fuel ih =>
      obtain ⟨hvalue, hpairs⟩ := ih
      exact ⟨hasDistinctKeys_of_readValue_succ hpairs, hasDistinctKeys_of_readPairs hvalue hpairs⟩

end Json

/-- **An object that is read from a text has distinct keys**, and so have the groups below it. -/
theorem distinctKeys_of_read {s : String} {fields : Fields} (h : Json.read s = .ok (.obj fields)) :
    fields.HasDistinctKeys := by
  rw [Json.read, Json.readChars] at h
  split at h
  · next v hall =>
      obtain rfl := Except.ok.inj h
      rw [Json.readAll.eq_def] at hall
      split at hall
      · exact absurd hall (by simp)
      · obtain ⟨⟨v, rest⟩, hv, hall⟩ := exists_of_bind_eq_ok hall
        dsimp only at hall
        split at hall
        · obtain rfl := Except.ok.inj hall
          exact (Json.hasDistinctKeys_of_readValue _).1 hv
        · exact absurd hall (by simp)
  all_goals exact absurd h (by simp)

end StyleTokens
