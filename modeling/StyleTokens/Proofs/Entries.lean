import StyleTokens.Check.Entry
import StyleTokens.Json.Writer
import StyleTokens.Proofs.Groups
import StyleTokens.Proofs.Keys
import StyleTokens.Text.Segment

/-!
Entries by dotted path and tokens of documents.

* `Path.dotted_concat`, `Path.ofDotted_dotted`: dotted paths of plain keys;
* `Token.entry`: a token as an entry;
* `TokenEntry.visitIn_eq_map`: the entries below an object are its tokens, if there is no metadata;
* `TokenEntry.merge_eq_append`: entries with new paths are put behind the others;
* `entries_eq_tokens`: the entries of a document are its tokens.
-/

namespace StyleTokens

/-! ### Dotted paths -/

namespace Path

variable {keys : Path} {key : String}

/-- The dotted path of keys that are not empty is empty only if there are none. -/
lemma dotted_eq_empty_iff (h : ∀ k ∈ keys, k ≠ "") : Path.dotted keys = "" ↔ keys = [] := by
  cases keys with
  | nil => simp [dotted, Text.dotted]
  | cons k keys =>
      have hk : k ≠ "" := h k (by simp)
      cases keys with
      | nil => simp [dotted, Text.dotted, hk]
      | cons next keys => simp [dotted, Text.dotted, String.append_eq_empty_iff]

/-- A key behind a dotted path makes the dotted path of the keys and this one. -/
lemma dotted_concat (h : ∀ k ∈ keys, k ≠ "") (key : String) :
    dottedKey (Path.dotted keys) key = Path.dotted (keys ++ [key]) := by
  rw [dottedKey]
  split
  · next hempty => simp [(dotted_eq_empty_iff h).mp hempty, dotted, Text.dotted]
  · next hempty =>
      have hne : keys ≠ [] := fun e => hempty ((dotted_eq_empty_iff h).mpr e)
      rw [dotted, dotted, Text.dotted, Text.dotted,
        String.intercalate_append_of_ne_nil hne (List.cons_ne_nil key []),
        String.intercalate_singleton]

/-- Cutting the dotted path of keys without dots gives the keys again. -/
lemma ofDotted_dotted (hne : keys ≠ []) (h : ∀ k ∈ keys, '.' ∉ k.toList) :
    Text.ofDotted (Path.dotted keys) = keys := by
  have hparts : ∀ part ∈ keys.map String.toList, '.' ∉ part := by
    simpa using h
  have hjoin : (Path.dotted keys).toList = ['.'].intercalate (keys.map String.toList) :=
    String.toList_intercalate
  rw [Text.ofDotted, hjoin, Text.segments_join (by simpa using hne) hparts, List.map_map]
  simp

end Path

/-! ### Entries with new paths -/

namespace TokenEntry

/-- An entry with a new path is put at the end. -/
lemma put_eq_append {entry : TokenEntry} {entries : List TokenEntry}
    (h : entry.path ∉ entries.map TokenEntry.path) : put entry entries = entries ++ [entry] := by
  induction entries with
  | nil => rfl
  | cons r rest ih =>
      rw [List.map_cons, List.mem_cons, not_or] at h
      rw [put, if_neg (Ne.symm h.1), ih h.2, List.cons_append]

/-- Entries with distinct new paths are put at the end in their order. -/
lemma merge_eq_append {entries later : List TokenEntry}
    (h : ((entries ++ later).map TokenEntry.path).Nodup) :
    merge entries later = entries ++ later := by
  induction later generalizing entries with
  | nil => simp [merge]
  | cons r later ih =>
      have hnew : r.path ∉ entries.map TokenEntry.path := by
        intro hmem
        rw [List.map_append, List.map_cons] at h
        exact (List.nodup_append.mp h).2.2 _ hmem _ (List.mem_cons_self ..) rfl
      have hshape : entries ++ r :: later = entries ++ [r] ++ later := by simp
      rw [hshape] at h ⊢
      rw [← ih h, merge, List.foldl_cons, put_eq_append hnew]
      rfl

end TokenEntry

/-! ### Entries and tokens -/

/-- The token as an entry by its dotted path. -/
def Token.entry (t : Token) : TokenEntry := ⟨t.path.dotted, t.value, t.tag⟩

namespace TokenEntry

open Document (tokensAt tokensIn)

/-- The condition on an entry below which both walks find the same: its key is not empty, and if it
has a `$`, no group stands there. -/
def IsOpen (e : String × Json) : Prop :=
  e.1 ≠ "" ∧ (isMetadataKey e.1 = true → e.2.isGroup = false)

variable {label : String}

mutual

/-- The entries at a key are the tokens there. -/
theorem visitAt_eq_map {path : Path} {key : String} (hpath : ∀ k ∈ path, k ≠ "") :
    ∀ {x : Json}, IsOpen (key, x) → (∀ g ∈ x.groups, ∀ e ∈ g, IsOpen e) →
      visitAt path.dotted key x = (tokensAt label path key x).map Token.entry
  | .null, _, _ => by simp [visitAt, tokensAt]
  | .bool _, _, _ => by simp [visitAt, tokensAt]
  | .int _, _, _ => by simp [visitAt, tokensAt]
  | .float _, _, _ => by simp [visitAt, tokensAt]
  | .str _, _, _ => by simp [visitAt, tokensAt]
  | .arr _, _, _ => by simp [visitAt, tokensAt]
  | .obj fields, hkey, hgroups => by
      simp only [visitAt, tokensAt, Path.dotted_concat hpath]
      cases hvalue : Fields.declaresValue fields with
      | true => rfl
      | false =>
          have hpublic : isMetadataKey key = false := by
            rw [← Bool.not_eq_true]
            intro hmeta
            exact absurd (hkey.2 hmeta) (by simp [Json.isGroup, hvalue])
          rw [Json.groups_obj hvalue, List.forall_mem_cons] at hgroups
          have hpath' : ∀ k ∈ path ++ [key], k ≠ "" :=
            List.forall_mem_append.mpr ⟨hpath, List.forall_mem_singleton.mpr hkey.1⟩
          simp only [hpublic, Bool.false_eq_true, if_false]
          exact visitIn_eq_map hpath' hgroups.1 hgroups.2

/-- The same for the entries of an object. -/
theorem visitIn_eq_map {path : Path} (hpath : ∀ k ∈ path, k ≠ "") :
    ∀ {fields : List (String × Json)}, (∀ e ∈ fields, IsOpen e) →
      (∀ g ∈ Json.groupsIn fields, ∀ e ∈ g, IsOpen e) →
        visitIn path.dotted fields = (tokensIn label path fields).map Token.entry
  | [], _, _ => by simp [visitIn, tokensIn]
  | (key, x) :: rest, hkeys, hgroups => by
      rw [List.forall_mem_cons] at hkeys
      rw [Json.groupsIn, List.forall_mem_append] at hgroups
      rw [visitIn, tokensIn, List.map_append, visitAt_eq_map hpath hkeys.1 hgroups.1,
        visitIn_eq_map hpath hkeys.2 hgroups.2]

end

end TokenEntry

/-! ### Documents -/

section Documents

variable {doc : Document} {fields : Fields} {t u : Token}

/-- The plain form of a key goes before the one with a `$`, whatever its value is. -/
lemma Fields.declared_eq_getD (fields : Fields) (key : String) :
    fields.declared key = (fields.get? key).getD ((fields.get? ("$" ++ key)).getD .null) := by
  rw [declared, has, getD, getD]
  cases fields.get? key <;> rfl

/-- The path of a token is made of plain keys if those of the groups are. -/
lemma plain_of_mem_flatten (hdistinct : doc.fields.HasDistinctKeys)
    (hplain : doc.fields.HasPlainKeys) (ht : t ∈ doc.flatten) :
    ∀ k ∈ t.path, Fields.IsPlainKey k := by
  obtain ⟨hroot, hbelow⟩ := Fields.forall_mem_groups.mp hdistinct
  obtain ⟨hrootPlain, hbelowPlain⟩ := Fields.forall_mem_groups.mp hplain
  obtain ⟨key, keys, node, rfl, -, -, hkey, hkeys⟩ :=
    Document.exists_at_of_mem_tokensIn hroot hbelow ht
  refine List.forall_mem_cons.mpr ⟨?_, fun k hk => ?_⟩
  · obtain ⟨e, he, rfl⟩ := List.mem_map.mp hkey
    exact hrootPlain e he
  · obtain ⟨g, hg, hk⟩ := hkeys k hk
    obtain ⟨e, he, rfl⟩ := List.mem_map.mp hk
    exact hbelowPlain g hg e he

/-- Cutting the dotted path of a token at its dots gives its path again. -/
lemma ofDotted_of_mem_flatten (hdistinct : doc.fields.HasDistinctKeys)
    (hplain : doc.fields.HasPlainKeys) (ht : t ∈ doc.flatten) :
    Text.ofDotted t.path.dotted = t.path :=
  Path.ofDotted_dotted (Document.path_ne_nil_of_mem_flatten ht) fun k hk =>
    (plain_of_mem_flatten hdistinct hplain ht k hk).2

/-- The tokens of a document have distinct paths. -/
lemma nodup_paths_flatten (hdistinct : doc.fields.HasDistinctKeys) :
    (doc.flatten.map Token.path).Nodup := by
  obtain ⟨hroot, hbelow⟩ := Fields.forall_mem_groups.mp hdistinct
  exact Document.nodup_tokensIn hroot hbelow

/-- The tokens of a document have distinct dotted paths. -/
lemma nodup_dotted_flatten (hdistinct : doc.fields.HasDistinctKeys)
    (hplain : doc.fields.HasPlainKeys) :
    ((doc.flatten.map Token.entry).map TokenEntry.path).Nodup := by
  have hshape : (doc.flatten.map Token.entry).map TokenEntry.path
      = (doc.flatten.map Token.path).map Path.dotted := by
    rw [List.map_map, List.map_map]
    rfl
  rw [hshape]
  refine (nodup_paths_flatten hdistinct).map_on fun p hp q hq hpq => ?_
  obtain ⟨t, ht, rfl⟩ := List.mem_map.mp hp
  obtain ⟨u, hu, rfl⟩ := List.mem_map.mp hq
  rw [← ofDotted_of_mem_flatten hdistinct hplain ht, hpq, ofDotted_of_mem_flatten hdistinct hplain hu]

/-- A token of a document has the value and the type tag that the object at its path declares. -/
lemma exists_at_of_mem_flatten (hdistinct : doc.fields.HasDistinctKeys) (ht : t ∈ doc.flatten) :
    ∃ node, (Json.obj doc.fields).at? t.path = some (.obj node) ∧
      t.value = Fields.declared node "value" ∧ t.tag = Fields.declared node "type" := by
  obtain ⟨hroot, hbelow⟩ := Fields.forall_mem_groups.mp hdistinct
  obtain ⟨key, keys, node, rfl, hat, -⟩ := Document.exists_at_of_mem_tokensIn hroot hbelow ht
  exact ⟨node, hat, rfl, rfl⟩

/-- **The entries of a document are its tokens**: where no group has a key twice, keys can be joined
with dots and no group is metadata, both walks find the same values and type tags at the same paths,
in the same order and each path once. Cutting a dotted path at its dots gives the path again. The
value and the type tag are those of the object at the path, under the plain key if it is there, even
with a null, and else under the one with a `$`. -/
theorem entries_eq_tokens (hdistinct : fields.HasDistinctKeys) (hplain : fields.HasPlainKeys)
    (hopen : fields.HasOpenGroups) (label : String) :
    TokenEntry.ofFields "" fields = (Document.flatten ⟨label, fields⟩).map Token.entry ∧
    ((TokenEntry.ofFields "" fields).map TokenEntry.path).Nodup ∧
    ∀ t ∈ Document.flatten ⟨label, fields⟩, Text.ofDotted t.path.dotted = t.path ∧
      ∃ node : Fields, (Json.obj fields).at? t.path = some (.obj node) ∧
        t.value = (node.get? "value").getD ((node.get? "$value").getD .null) ∧
        t.tag = (node.get? "type").getD ((node.get? "$type").getD .null) := by
  let doc : Document := ⟨label, fields⟩
  have hnodup : ((doc.flatten.map Token.entry).map TokenEntry.path).Nodup :=
    nodup_dotted_flatten hdistinct hplain
  have hentries : TokenEntry.ofFields "" fields
      = (Document.flatten ⟨label, fields⟩).map Token.entry := by
    have hgroups : ∀ g ∈ fields.groups, ∀ e ∈ g, TokenEntry.IsOpen e :=
      fun g hg e he => ⟨(hplain g hg e he).1, hopen g hg e he⟩
    obtain ⟨hroot, hbelow⟩ := Fields.forall_mem_groups.mp hgroups
    have hvisit : TokenEntry.visitIn "" fields
        = (Document.flatten ⟨label, fields⟩).map Token.entry :=
      TokenEntry.visitIn_eq_map (List.forall_mem_nil _) hroot hbelow
    rw [TokenEntry.ofFields, hvisit]
    exact TokenEntry.merge_eq_append hnodup
  refine ⟨hentries, hentries ▸ hnodup, fun t ht => ?_⟩
  refine ⟨ofDotted_of_mem_flatten hdistinct hplain ht, ?_⟩
  obtain ⟨node, hat, hvalue, htag⟩ := exists_at_of_mem_flatten hdistinct ht
  exact ⟨node, hat, hvalue.trans (Fields.declared_eq_getD node "value"),
    htag.trans (Fields.declared_eq_getD node "type")⟩

/-- Tokens with keys of both forms, a null in front of a value with a `$`, and a token below a key
with a `$`. -/
def mixedText : String :=
  "\x7b\"ink\": \x7b\"base\": \x7b\"$type\": \"color\", \"$value\": \"#000\"\x7d, " ++
    "\"none\": \x7b\"$value\": 4, \"value\": null, \"$type\": \"number\"\x7d\x7d, " ++
    "\"$step\": \x7b\"value\": 8\x7d, \"note\": \"plain\"\x7d"

/-- The entries of an object, with their values and type tags written as texts. -/
def writtenEntries (fields : Fields) : List (String × String × String) :=
  (TokenEntry.ofFields "" fields).map fun r => (r.path, r.value.written, r.tag.written)

/-- Both walks find the three tokens of the object that is read, with the null in its place. -/
theorem entries_eq_tokens_mixed :
    ∃ fields : Fields, Json.read mixedText = .ok (.obj fields) ∧
      Fields.HasDistinctKeys fields ∧ Fields.HasPlainKeys fields ∧ Fields.HasOpenGroups fields ∧
      writtenEntries fields
        = [("ink.base", "\"#000\"", "\"color\""), ("ink.none", "null", "\"number\""),
          ("$step", "8", "null")] ∧
      TokenEntry.ofFields "" fields = (Document.flatten ⟨"mixed", fields⟩).map Token.entry := by
  have hall : ((Json.read mixedText).toOption.bind Json.fields?).map (fun fields =>
      (decide (Fields.HasPlainKeys fields), decide (Fields.HasOpenGroups fields),
        writtenEntries fields))
      = some (true, true, [("ink.base", "\"#000\"", "\"color\""),
          ("ink.none", "null", "\"number\""), ("$step", "8", "null")]) := by
    decide +kernel
  obtain ⟨fields, hfields, hchecks⟩ := Option.map_eq_some_iff.mp hall
  obtain ⟨v, hv, hobj⟩ := Option.bind_eq_some_iff.mp hfields
  have hread : Json.read mixedText = .ok (.obj fields) := by
    cases hr : Json.read mixedText with
    | error e => rw [hr] at hv; cases hv
    | ok w =>
        rw [hr] at hv
        obtain rfl : w = v := Option.some.inj hv
        cases w with
        | obj _ => rw [Option.some.inj hobj]
        | _ => cases hobj
  simp only [Prod.mk.injEq, decide_eq_true_eq] at hchecks
  obtain ⟨hplain, hopen, hwritten⟩ := hchecks
  have hdistinct : Fields.HasDistinctKeys fields := distinctKeys_of_read hread
  exact ⟨fields, hread, hdistinct, hplain, hopen, hwritten,
    (entries_eq_tokens hdistinct hplain hopen "mixed").1⟩

end Documents

end StyleTokens
