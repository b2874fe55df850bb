import StyleTokens.Proofs.Arrangement
import StyleTokens.Proofs.Entries

/-!
Which tokens a document has, and in which order.

* `Fields.IsTokenPath`: the keys of a path lead from an object through groups to a token;
* `Fields.isTokenPath_cons_iff`: the same by the first entry of an object, with `Json.IsTokenAt` for what
  stands behind the first key;
* `Document.mem_tokensIn_iff`: the tokens of an object are those at such paths;
* `Json.ComesBefore`: of two paths, one comes first in a value;
* `Document.pairwise_tokensIn`: the tokens come in the order of their paths;
* `Document.flatten_spec`: which tokens a document has, and that it has them in this order.
-/

namespace StyleTokens

/-! ### Paths to tokens -/

/-- The path leads from an object to another one that declares a value. On the way there, no key begins
with a `$`, and every key leads to an object that declares no value. The path is not empty, so the
first object itself may declare one. -/
structure Fields.IsTokenPath (fields : Fields) (path : Path) (node : Fields) : Prop where
  ne_nil : path ≠ []
  leads : (Json.obj fields).at? path = some (.obj node)
  declares : node.declaresValue = true
  groups : ∀ before key after, path = before ++ key :: after → after ≠ [] →
    isMetadataKey key = false ∧ ∃ group : Fields,
      (Json.obj fields).at? (before ++ [key]) = some (.obj group) ∧ group.declaresValue = false

/-- What stands at a key is the token itself, or a group that is no metadata from which the path leads
there. -/
def Json.IsTokenAt (key : String) (x : Json) (path : Path) (node : Fields) : Prop :=
  path = [] ∧ x = .obj node ∧ node.declaresValue = true ∨
    ∃ group : Fields, x = .obj group ∧ group.declaresValue = false ∧ isMetadataKey key = false ∧
      group.IsTokenPath path node

namespace Json

variable {fields node : Fields} {key : String} {path : Path}

/-- Nothing but a token itself is reached from it. -/
lemma isTokenAt_of_declaresValue (h : fields.declaresValue = true) :
    IsTokenAt key (.obj fields) path node ↔ path = [] ∧ fields = node := by
  constructor
  · rintro (⟨rfl, ⟨⟩, -⟩ | ⟨group, ⟨⟩, hvalue, -, -⟩)
    · exact ⟨rfl, rfl⟩
    · rw [h] at hvalue
      cases hvalue
  · rintro ⟨rfl, rfl⟩
    exact .inl ⟨rfl, rfl, h⟩

/-- From a group, paths lead on if its key is no metadata. -/
lemma isTokenAt_of_group (h : fields.declaresValue = false) :
    IsTokenAt key (.obj fields) path node ↔
      isMetadataKey key = false ∧ fields.IsTokenPath path node := by
  constructor
  · rintro (⟨rfl, ⟨⟩, hvalue⟩ | ⟨group, ⟨⟩, -, hkey, hpath⟩)
    · rw [h] at hvalue
      cases hvalue
    · exact ⟨hkey, hpath⟩
  · rintro ⟨hkey, hpath⟩
    exact .inr ⟨fields, rfl, h, hkey, hpath⟩

end Json

namespace Fields

variable {fields node : Fields} {key : String} {path : Path}

lemma not_isTokenPath_nil : ¬ fields.IsTokenPath [] node := fun h => h.ne_nil rfl

lemma at?_cons {x : Json} (hx : fields.get? key = some x) (path : Path) :
    (Json.obj fields).at? (key :: path) = x.at? path := by
  rw [Json.at?, hx]
  rfl

/-- A path leads to a token by what stands at its first key. -/
lemma isTokenPath_cons_iff : fields.IsTokenPath (key :: path) node ↔
    ∃ x, fields.get? key = some x ∧ x.IsTokenAt key path node := by
  constructor
  · rintro ⟨-, hleads, hdeclares, hgroups⟩
    obtain ⟨x, hx, hleads⟩ := Option.bind_eq_some_iff.mp hleads
    refine ⟨x, hx, ?_⟩
    cases path with
    | nil => exact .inl ⟨rfl, Option.some.inj hleads, hdeclares⟩
    | cons next path =>
        obtain ⟨hkey, group, hgroup, hvalue⟩ := hgroups [] key (next :: path) rfl (by simp)
        rw [List.nil_append, at?_cons hx] at hgroup
        obtain rfl : x = .obj group := Option.some.inj hgroup
        refine .inr ⟨group, rfl, hvalue, hkey, List.cons_ne_nil _ _, hleads, hdeclares, ?_⟩
        intro before k after hpath hafter
        obtain ⟨hk, inner, hinner, hvalue⟩ :=
          hgroups (key :: before) k after (congrArg (key :: ·) hpath) hafter
        rw [List.cons_append, at?_cons hx] at hinner
        exact ⟨hk, inner, hinner, hvalue⟩
  · rintro ⟨x, hx, ⟨rfl, rfl, hdeclares⟩ | ⟨group, rfl, hvalue, hkey, hpath⟩⟩
    · refine ⟨List.cons_ne_nil _ _, at?_cons hx [], hdeclares, fun before k after hpath hafter => ?_⟩
      have hlength := congrArg List.length hpath
      have hpos := List.length_pos_of_ne_nil hafter
      simp only [List.length_append, List.length_cons, List.length_nil] at hlength
      omega
    · refine ⟨List.cons_ne_nil _ _, (at?_cons hx path).trans hpath.leads, hpath.declares, ?_⟩
      intro before k after htext hafter
      cases before with
      | nil =>
          obtain ⟨rfl, rfl⟩ := List.cons.inj htext
          exact ⟨hkey, group, at?_cons hx [], hvalue⟩
      | cons b before =>
          obtain ⟨rfl, htail⟩ := List.cons.inj htext
          obtain ⟨hk, inner, hinner, hvalue⟩ := hpath.groups before k after htail hafter
          exact ⟨hk, inner, (at?_cons hx (before ++ [k])).trans hinner, hvalue⟩

/-- Paths in an object begin at its first entry, or at one of the others. -/
lemma isTokenPath_entries_iff {x : Json} {rest : Fields} (hnew : key ∉ rest.map Prod.fst) :
    IsTokenPath ((key, x) :: rest) path node ↔
      (∃ keys, path = key :: keys ∧ x.IsTokenAt key keys node) ∨ rest.IsTokenPath path node := by
  cases path with
  | nil => simp [not_isTokenPath_nil]
  | cons k keys =>
      rw [isTokenPath_cons_iff, isTokenPath_cons_iff, get?_cons]
      by_cases hk : k = key
      · subst hk
        have hnone : rest.get? k = none := by
          have hhas : ¬ rest.has k = true := fun h => hnew (has_iff_mem_keys.mp h)
          simpa [has] using hhas
        simp [hnone]
      · simp [hk]

end Fields

/-! ### Tokens -/

namespace Document

variable {label : String} {t : Token}

mutual

/-- The tokens at a key are those to which what stands there leads. -/
theorem mem_tokensAt_iff {path : Path} {key : String} : ∀ {x : Json},
    (∀ g ∈ x.groups, (g.map Prod.fst).Nodup) →
      (t ∈ tokensAt label path key x ↔ ∃ keys node, x.IsTokenAt key keys node ∧
        t = Token.ofNode label (path ++ key :: keys) node)
  | .null, _ | .bool _, _ | .int _, _ | .float _, _ | .str _, _ | .arr _, _ => by
      simp [tokensAt, Json.IsTokenAt]
  | .obj fields, h => by
      rw [tokensAt]
      cases hvalue : Fields.declaresValue fields with
      | true => simp [Json.isTokenAt_of_declaresValue hvalue]
      | false =>
          rw [Json.groups_obj hvalue, List.forall_mem_cons] at h
          simp only [Json.isTokenAt_of_group hvalue]
          cases hkey : isMetadataKey key with
          | true => simp
          | false =>
              have hbelow := @mem_tokensIn_iff (path ++ [key]) fields h.1 h.2
              simpa using hbelow

/-- **The tokens in an object are those to which paths lead.** -/
theorem mem_tokensIn_iff {path : Path} : ∀ {fields : List (String × Json)},
    (fields.map Prod.fst).Nodup → (∀ g ∈ Json.groupsIn fields, (g.map Prod.fst).Nodup) →
      (t ∈ tokensIn label path fields ↔ ∃ keys node, Fields.IsTokenPath fields keys node ∧
        t = Token.ofNode label (path ++ keys) node)
  | [], _, _ => by
      have hnone : ∀ keys node, ¬ Fields.IsTokenPath [] keys node := by
        rintro (_ | ⟨key, keys⟩) node h
        · exact Fields.not_isTokenPath_nil h
        · obtain ⟨x, hx, -⟩ := Fields.isTokenPath_cons_iff.mp h
          cases hx
      simp [tokensIn, hnone]
  | (key, x) :: rest, hkeys, h => by
      rw [List.map_cons, List.nodup_cons] at hkeys
      rw [Json.groupsIn, List.forall_mem_append] at h
      rw [tokensIn, List.mem_append, mem_tokensAt_iff h.1, mem_tokensIn_iff hkeys.2 h.2]
      simp only [Fields.isTokenPath_entries_iff hkeys.1]
      constructor
      · rintro (⟨keys, node, hat, rfl⟩ | ⟨keys, node, hpath, rfl⟩)
        · exact ⟨key :: keys, node, .inl ⟨keys, rfl, hat⟩, rfl⟩
        · exact ⟨keys, node, .inr hpath, rfl⟩
      · rintro ⟨_, node, ⟨keys, rfl, hat⟩ | hpath, rfl⟩
        · exact .inl ⟨keys, node, hat, rfl⟩
        · exact .inr ⟨_, node, hpath, rfl⟩

end

end Document

/-! ### Order -/

/-- The first path comes before the second one in a value: where they part, they go on with two keys of
an object of which the first path has the earlier one. -/
def Json.ComesBefore (v : Json) (p q : Path) : Prop :=
  ∃ common key p' key' q', p = common ++ key :: p' ∧ q = common ++ key' :: q' ∧
    ∃ group : Fields, v.at? common = some (.obj group) ∧
      [key, key'].Sublist (group.map Prod.fst)

namespace Json.ComesBefore

variable {key : String} {x : Json} {rest : Fields} {p q : Path}

/-- Paths stay in order behind the first key of an object. -/
lemma below (h : x.ComesBefore p q) :
    (Json.obj ((key, x) :: rest)).ComesBefore (key :: p) (key :: q) := by
  obtain ⟨common, k, p', k', q', rfl, rfl, group, hgroup, hkeys⟩ := h
  refine ⟨key :: common, k, p', k', q', rfl, rfl, group, ?_, hkeys⟩
  rw [Json.at?_obj_cons, if_pos rfl, hgroup]

/-- They do so if an entry with a new key comes before them. -/
lemma behind (hnew : key ∉ rest.map Prod.fst) (h : (Json.obj rest).ComesBefore p q) :
    (Json.obj ((key, x) :: rest)).ComesBefore p q := by
  obtain ⟨common, k, p', k', q', rfl, rfl, group, hgroup, hkeys⟩ := h
  cases common with
  | nil =>
      obtain rfl : rest = group := Json.obj.inj (Option.some.inj hgroup)
      exact ⟨[], k, p', k', q', rfl, rfl, _, rfl, hkeys.cons key⟩
  | cons c common =>
      have hc : c ≠ key := by
        rintro rfl
        obtain ⟨y, hy, -⟩ := Option.bind_eq_some_iff.mp hgroup
        exact hnew (Fields.has_iff_mem_keys.mp (by rw [Fields.has, hy]; rfl))
      refine ⟨c :: common, k, p', k', q', rfl, rfl, group, ?_, hkeys⟩
      rw [Json.at?_obj_cons, if_neg hc, hgroup]

/-- A path through the first entry comes before those through others. -/
lemma front {key' : String} (h : key' ∈ rest.map Prod.fst) :
    (Json.obj ((key, x) :: rest)).ComesBefore (key :: p) (key' :: q) :=
  ⟨[], key, p, key', q, rfl, rfl, _, rfl, (List.singleton_sublist.mpr h).cons_cons key⟩

end Json.ComesBefore

namespace Document

variable {label : String}

/-- The tokens are behind a path, and the rest of their paths comes in order in a value. -/
def InOrder (path : Path) (v : Json) (t u : Token) : Prop :=
  ∃ p q, t.path = path ++ p ∧ u.path = path ++ q ∧ v.ComesBefore p q

mutual

/-- The tokens at a key come in order. -/
theorem pairwise_tokensAt {path : Path} {key : String} : ∀ {x : Json},
    (∀ g ∈ x.groups, (g.map Prod.fst).Nodup) →
      (tokensAt label path key x).Pairwise (InOrder (path ++ [key]) x)
  | .null, _ | .bool _, _ | .int _, _ | .float _, _ | .str _, _ | .arr _, _ => by
      simp [tokensAt]
  | .obj fields, h => by
      rw [tokensAt]
      split
      · exact List.pairwise_singleton _ _
      · next hvalue =>
          rw [Json.groups_obj (by simpa using hvalue), List.forall_mem_cons] at h
          split
          · exact .nil
          · exact pairwise_tokensIn h.1 h.2

/-- **The tokens in an object come in the order of its entries**, and those behind one entry in their
order there. -/
theorem pairwise_tokensIn {path : Path} : ∀ {fields : List (String × Json)},
    (fields.map Prod.fst).Nodup → (∀ g ∈ Json.groupsIn fields, (g.map Prod.fst).Nodup) →
      (tokensIn label path fields).Pairwise (InOrder path (.obj fields))
  | [], _, _ => .nil
  | (key, x) :: rest, hkeys, h => by
      rw [List.map_cons, List.nodup_cons] at hkeys
      rw [Json.groupsIn, List.forall_mem_append] at h
      rw [tokensIn, List.pairwise_append]
      refine ⟨(pairwise_tokensAt h.1).imp ?_, (pairwise_tokensIn hkeys.2 h.2).imp ?_, ?_⟩
      · rintro t u ⟨p, q, ht, hu, hpq⟩
        exact ⟨key :: p, key :: q, by simp [ht], by simp [hu], hpq.below⟩
      · rintro t u ⟨p, q, ht, hu, hpq⟩
        exact ⟨p, q, ht, hu, hpq.behind hkeys.1⟩
      · intro t ht u hu
        obtain ⟨keys, node, rfl, -⟩ := exists_at_of_mem_tokensAt h.1 ht
        obtain ⟨next, keys', node', rfl, -, -, hnext, -⟩ :=
          exists_at_of_mem_tokensIn hkeys.2 h.2 hu
        exact ⟨key :: keys, next :: keys', rfl, rfl, .front hnext⟩

end

/-! ### Documents -/

/-- **Which tokens a document has, and in which order.** There is a token at a path if and only if the
path leads to an object that declares a value, through objects that declare none and under keys of
which only the last one may begin with a `$`; the root is not taken for a token, whatever it declares.
What the token is told by is the object at its path. The tokens come in the order in which the document
has their paths, no path comes twice, and none runs through another one. -/
theorem flatten_spec {doc : Document} (h : doc.fields.HasDistinctKeys) :
    (∀ t, t ∈ doc.flatten ↔
      ∃ path node, doc.fields.IsTokenPath path node ∧ t = Token.ofNode doc.label path node) ∧
    (doc.flatten.map Token.path).Pairwise (Json.obj doc.fields).ComesBefore ∧
    (doc.flatten.map Token.path).Nodup ∧ PrefixFree (doc.flatten.map Token.path) := by
  obtain ⟨hroot, hgroups⟩ := Fields.forall_mem_groups.mp h
  refine ⟨fun t => mem_tokensIn_iff hroot hgroups, ?_, nodup_paths_flatten h,
    prefixFree_flatten h⟩
  rw [List.pairwise_map]
  refine (pairwise_tokensIn hroot hgroups).imp fun {t u} htu => ?_
  obtain ⟨p, q, ht, hu, hpq⟩ := htu
  rwa [ht, hu]

/-- A root that declares a value, and a group with a note, a token inside a token, a token in metadata
and one whose key begins with a `$`. -/
def notedInks : Document :=
  ⟨"inks",
    [("$value", .int 1),
      ("ink", .obj
        [("$type", .str "color"),
          ("dark", .obj [("value", .str "#111"), ("old", .obj [("value", .str "#222")])]),
          ("$extensions", .obj [("raw", .obj [("value", .int 1)])]),
          ("$light", .obj [("$value", .str "#EEE")])]),
      ("gap", .obj [("value", .null), ("$type", .obj [])])]⟩

/-- Three paths lead to tokens. -/
theorem flatten_spec_notedInks :
    notedInks.fields.HasDistinctKeys ∧
      notedInks.flatten.map Token.path = [["ink", "dark"], ["ink", "$light"], ["gap"]] ∧
      (∃ node, notedInks.fields.IsTokenPath ["ink", "$light"] node) ∧
      (∀ node, ¬ notedInks.fields.IsTokenPath ["ink", "dark", "old"] node) ∧
      (∀ node, ¬ notedInks.fields.IsTokenPath ["ink", "$extensions", "raw"] node) ∧
      (Json.obj notedInks.fields).ComesBefore ["ink", "$light"] ["gap"] := by
  have hkeys : notedInks.fields.HasDistinctKeys := by decide
  have hpaths : notedInks.flatten.map Token.path
      = [["ink", "dark"], ["ink", "$light"], ["gap"]] := rfl
  obtain ⟨hmem, horder, -, -⟩ := flatten_spec hkeys
  have hpath : ∀ path, path ∈ notedInks.flatten.map Token.path ↔
      ∃ node, notedInks.fields.IsTokenPath path node := by
    intro path
    simp only [List.mem_map, hmem]
    constructor
    · rintro ⟨_, ⟨path, node, hpath, rfl⟩, rfl⟩
      exact ⟨node, hpath⟩
    · rintro ⟨node, hpath⟩
      exact ⟨_, ⟨path, node, hpath, rfl⟩, rfl⟩
  rw [hpaths] at horder hpath
  refine ⟨hkeys, hpaths, (hpath _).mp (by decide), fun node h => ?_, fun node h => ?_, ?_⟩
  · exact absurd ((hpath _).mpr ⟨node, h⟩) (by decide)
  · exact absurd ((hpath _).mpr ⟨node, h⟩) (by decide)
  · exact List.rel_of_pairwise_cons (List.Pairwise.of_cons horder) (by decide)

end Document

end StyleTokens
