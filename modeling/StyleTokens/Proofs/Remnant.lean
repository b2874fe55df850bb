import StyleTokens.Proofs.Solution

/-!
References that are left in resolved values.

* `Reference.Parts`: a text in which every reference is replaced, as the list of what stood
  between the references and of the texts that were filled in;
* `Reference.Spanned`: a reference that begins in one of several texts and ends in a later one;
* `free_flatten_iff`: a join of texts is free of references if each of the texts is and none spans
  several of them;
* `resolve_referenceFree_iff`: no resolved value holds a reference exactly if no text that is filled
  in holds one and none arises where texts are joined. `nested_braces_leave_reference` has a value
  in which one does.
-/

namespace StyleTokens

namespace Reference

/-! ### Joined texts -/

/-- The second list is the first text in parts: what stands between the references, and for each
reference the text of the value that it names. -/
inductive Parts (values : Values) : List Char → List (List Char) → Prop where
  | free {cs : List Char} : Free cs → Parts values cs [cs]
  | reference {before after name : List Char} {front back : List (List Char)} {v : Json} :
      Parts values before front → IsName name → values.named (String.ofList name) = some v →
        Parts values after back →
          Parts values (before ++ braced name ++ after) (front ++ v.embedded.toList :: back)

/-- Does a reference begin in one of the texts and end in a later one? -/
def Spanned (parts : List (List Char)) : Prop :=
  ∃ before left start between stop right after,
    parts = before ++ (left ++ '{' :: start) :: between ++ (stop ++ '}' :: right) :: after ∧
      IsName (start ++ between.flatten ++ stop)

/-- The joined parts are the text with its references filled in. -/
lemma filled_iff_parts {values : Values} {cs out : List Char} :
    Filled values cs out ↔ ∃ parts, Parts values cs parts ∧ parts.flatten = out := by
  constructor
  · intro h
    induction h with
    | free hfree => exact ⟨_, .free hfree, by simp⟩
    | reference _ hname hv _ ih ih' =>
        obtain ⟨front, hfront, rfl⟩ := ih
        obtain ⟨back, hback, rfl⟩ := ih'
        exact ⟨_, .reference hfront hname hv hback, by simp⟩
  · rintro ⟨parts, h, rfl⟩
    induction h with
    | free hfree =>
        rw [List.flatten_singleton]
        exact .free hfree
    | reference _ hname hv _ ih ih' =>
        rw [List.flatten_append, List.flatten_cons, ← List.append_assoc]
        exact .reference ih hname hv ih'

/-- Filling in the references of a text gives one text. -/
lemma Filled.unique {values : Values} {cs out out' : List Char} (h : Filled values cs out)
    (h' : Filled values cs out') : out = out' := by
  have heq := h.replaceInPieces_eq
  rw [h'.replaceInPieces_eq] at heq
  exact (Option.some.inj heq).symm

/-- A character of joined texts belongs to one of them. -/
lemma exists_of_flatten_eq {parts : List (List Char)} {before after : List Char} {c : Char}
    (h : parts.flatten = before ++ c :: after) :
    ∃ pre left right post, parts = pre ++ (left ++ c :: right) :: post ∧
      before = pre.flatten ++ left ∧ after = right ++ post.flatten := by
  rcases List.flatten_eq_append_iff.mp h with
    ⟨pre, rest, rfl, hbefore, hrest⟩ | ⟨pre, left, d, right, post, hparts, hbefore, hrest⟩
  · -- the character is the first one of the texts that are left
    obtain ⟨blank, right, post, rfl, hblank, hafter⟩ := List.flatten_eq_cons_iff.mp hrest.symm
    refine ⟨pre ++ blank, [], right, post, by simp, ?_, hafter⟩
    rw [List.append_nil, List.flatten_append, List.flatten_eq_nil_iff.mpr hblank, hbefore,
      List.append_nil]
  · obtain ⟨rfl, rfl⟩ := List.cons.inj hrest
    exact ⟨pre, left, right, post, hparts, hbefore, rfl⟩

/-- A reference in one of several texts is one in their join. -/
lemma Free.of_flatten {parts : List (List Char)} (h : Free parts.flatten) {part : List Char}
    (hpart : part ∈ parts) : Free part := by
  rintro before name after hname rfl
  obtain ⟨pre, post, rfl⟩ := List.append_of_mem hpart
  exact h (pre.flatten ++ before) name (after ++ post.flatten) hname (by simp)

/-- A reference that spans several texts is one in their join. -/
lemma Free.not_spanned {parts : List (List Char)} (h : Free parts.flatten) : ¬ Spanned parts := by
  rintro ⟨before, left, start, between, stop, right, after, rfl, hname⟩
  exact h (before.flatten ++ left) _ (right ++ after.flatten) hname (by simp [braced])

/-- **A join of texts is free of references exactly if each of the texts is and no reference spans
several of them.** -/
theorem free_flatten_iff {parts : List (List Char)} :
    Free parts.flatten ↔ (∀ part ∈ parts, Free part) ∧ ¬ Spanned parts := by
  refine ⟨fun h => ⟨fun part hpart => h.of_flatten hpart, h.not_spanned⟩, ?_⟩
  rintro ⟨hfree, hspanned⟩ before name after hname heq
  -- the opening brace belongs to one of the texts
  have hopen : parts.flatten = before ++ '{' :: (name ++ '}' :: after) := by
    simpa [braced] using heq
  obtain ⟨pre, left, start, post, rfl, rfl, hrest⟩ := exists_of_flatten_eq hopen
  -- and so does the closing one: to a later text, or to the same
  have hlater : ∀ inner, name = start ++ inner → post.flatten = inner ++ '}' :: after → False := by
    intro inner hstart hpost
    obtain ⟨between, stop, right, rest, rfl, rfl, rfl⟩ := exists_of_flatten_eq hpost
    refine hspanned ⟨pre, left, start, between, stop, right, rest, by simp, ?_⟩
    rwa [List.append_assoc, ← hstart]
  rcases List.append_eq_append_iff.mp hrest with ⟨rest, hstart, hclose⟩ | ⟨inner, hstart, hpost⟩
  · cases rest with
    | nil => exact hlater [] (by simpa using hstart.symm) (by simpa using hclose.symm)
    | cons d right =>
        obtain ⟨rfl, rfl⟩ := List.cons.inj hclose
        exact hfree (left ++ '{' :: start) (by simp) left name right hname
          (by simp [hstart, braced])
  · exact hlater inner hstart hpost

/-- A text with its references filled in is free of references exactly if its parts, which are
joined, make none. -/
lemma Filled.free_iff {values : Values} {cs out : List Char} (h : Filled values cs out) :
    Free out ↔ ∀ parts, Parts values cs parts → (∀ part ∈ parts, Free part) ∧ ¬ Spanned parts := by
  constructor
  · intro hfree parts hparts
    obtain rfl := h.unique (filled_iff_parts.mpr ⟨parts, hparts, rfl⟩)
    exact free_flatten_iff.mp hfree
  · intro hall
    obtain ⟨parts, hparts, rfl⟩ := filled_iff_parts.mp h
    exact free_flatten_iff.mpr (hall parts hparts)

end Reference

open Reference

/-! ### Values without references -/

/-- A value has no references if its strings are free of them. -/
lemma Json.references_eq_nil_iff {v : Json} :
    v.references = [] ↔ ∀ s ∈ v.strings, Free s.toList := by
  rw [references_eq_flatMap, List.flatMap_eq_nil_iff]
  simp only [references, List.map_eq_nil_iff, names_eq_nil_iff]

section Resolved

variable {docs : List Document} {c : TokenList}

/-- The resolved tokens have no references if no value has one. -/
lemma forall_token_references_iff (h : resolve docs = .ok c) :
    (∀ t ∈ c.tokens, t.value.references = []) ↔
      ∀ p v, c.values p = some v → v.references = [] := by
  have hsolves := solves_values h
  have htokens := tokens_of_resolve h
  constructor
  · intro hall p v hv
    obtain ⟨t, ht, -⟩ := hsolves.exists_definition hv
    have hpath := path_of_lastDefinition ht
    have hmem : t.settled c.values ∈ c.tokens := by
      rw [htokens]
      exact List.mem_map_of_mem (mem_table_iff.mpr (by rw [hpath, ht]))
    simpa [Token.settled, Token.resolved, hpath, hv] using hall _ hmem
  · intro hall t ht
    obtain ⟨-, -, -, hv⟩ := definition_of_mem_resolve h ht
    exact hall _ _ hv

/-- **No resolved value holds a reference exactly if this is so for every string of a definition in
which references are filled in**: none of the texts that are joined there holds a reference, and
none arises where they meet. Strings that are one reference, and those without any, leave none. -/
theorem resolve_referenceFree_iff (h : resolve docs = .ok c) :
    (∀ t ∈ c.tokens, t.value.references = []) ↔
      ∀ p t, lastDefinition docs p = some t → ∀ s ∈ t.value.strings, (∀ name, ¬ IsWhole s name) →
        ∀ parts, Parts c.values s.toList parts →
          (∀ part ∈ parts, Free part) ∧ ¬ Spanned parts := by
  have hsolves := solves_values h
  rw [forall_token_references_iff h]
  constructor
  · intro hall p t ht s hs hwhole
    obtain ⟨v, hv, hsub⟩ := hsolves.exists_value ht
    obtain ⟨u, hu, hstrings⟩ := hsub.exists_of_mem hs
    cases hu with
    | whole hname _ => exact absurd hname (hwhole _)
    | @text out _ hfilled =>
        have hmem : String.ofList out ∈ v.strings := hstrings _ (by simp [Json.strings])
        have hfree := Json.references_eq_nil_iff.mp (hall p v hv) _ hmem
        rw [String.toList_ofList] at hfree
        exact hfilled.free_iff.mp hfree
  · intro hjoins p v hv
    -- the values that are named lie further along the references
    induction acc_of_resolve h hv generalizing v with
    | intro p _ ih =>
        obtain ⟨t, ht, hsub⟩ := hsolves.exists_definition hv
        rw [Json.references_eq_nil_iff]
        intro x hx
        obtain ⟨s, hs, u, hu, hxu⟩ := hsub.exists_source hx
        cases hu with
        | @whole name _ hname hu =>
            have hread := (mem_pieces_of_whole (isWhole_iff.mp hname)).mpr rfl
            have href : Refers (lastDefinition docs) p (target (String.ofList name)) :=
              ⟨t, ht, _, stripped_mem_references hs hread, target_stripped _⟩
            exact Json.references_eq_nil_iff.mp (ih _ href u hu) x hxu
        | @text out hwhole hfilled =>
            obtain rfl : x = String.ofList out := by simpa [Json.strings] using hxu
            rw [String.toList_ofList]
            exact hfilled.free_iff.mpr (hjoins p t ht s hs hwhole)

end Resolved

/-- A value in which a reference stands between braces of its own, to a token whose value is the
name of another token. -/
def nestedBraces : Document :=
  ⟨"nested", [
    ("alias", .obj [("value", .str "size")]),
    ("size", .obj [("value", .int 16)]),
    ("gap", .obj [("value", .str "\x7b\x7balias\x7d\x7d")])]⟩

/-- The braces around a reference that is replaced make a new one with the text that is filled in. -/
theorem nested_braces_leave_reference :
    ∃ c, resolve [nestedBraces] = .ok c ∧
      c.tokens.map Token.value = [.str "size", .int 16, .str "\x7bsize\x7d"] ∧
      ∃ t ∈ c.tokens, t.value.references = ["size"] := by
  obtain ⟨c, hc, hvalues⟩ : ∃ c, resolve [nestedBraces] = .ok c ∧
      c.tokens.map Token.value = [.str "size", .int 16, .str "\x7bsize\x7d"] := ⟨_, rfl, rfl⟩
  refine ⟨c, hc, hvalues, ?_⟩
  have hmem : .str "\x7bsize\x7d" ∈ c.tokens.map Token.value := by simp [hvalues]
  obtain ⟨t, ht, hvalue⟩ := List.mem_map.mp hmem
  refine ⟨t, ht, ?_⟩
  rw [hvalue]
  decide

/-- Where a size is filled in within a longer string, no parts make a reference. -/
theorem resolve_referenceFree_override :
    ∃ c, resolve [baseSizes, largeSizes] = .ok c ∧
      (∀ p t, lastDefinition [baseSizes, largeSizes] p = some t → ∀ s ∈ t.value.strings,
        (∀ name, ¬ IsWhole s name) → ∀ parts, Parts c.values s.toList parts →
          (∀ part ∈ parts, Free part) ∧ ¬ Spanned parts) := by
  obtain ⟨c, hc, hvalues⟩ : ∃ c, resolve [baseSizes, largeSizes] = .ok c ∧
      c.tokens.map Token.value
        = [.int 16, .int 16, .arr [.str "16px solid", .bool true]] := ⟨_, rfl, rfl⟩
  have hfree : ∀ v ∈ [.int 16, .int 16, .arr [.str "16px solid", .bool true]],
      Json.references v = [] := by decide
  rw [← hvalues] at hfree
  refine ⟨c, hc, (resolve_referenceFree_iff hc).mp fun t ht => ?_⟩
  exact hfree t.value (List.mem_map_of_mem ht)

end StyleTokens
