import StyleTokens.Proofs.Groups
import StyleTokens.Proofs.Merging
import StyleTokens.Proofs.Nesting

/-!
Tokens arranged by their paths.

* `PrefixFree`: no path runs through another one;
* `NameTree.Arranges`: a tree with the names of tokens at their paths, groups on the way to them and
  the keys of each group in the order in which they come first;
* `NameTree.Arranges.concat`, `NameTree.entriesOf_cases`: one more token, and all tokens one after the
  other, up to the first that does not fit in;
* `NameTree.exists_ofTokens`: tokens with distinct paths that do not run through each other;
* `Document.prefixFree_flatten`: the paths of one document do;
* `NameTree.ofTokens_arranges`: which tokens form a tree, and what it is like.
-/

namespace StyleTokens

/-- No path runs through another one. -/
def PrefixFree (paths : List Path) : Prop := ∀ p ∈ paths, ∀ q ∈ paths, p <+: q → p = q

lemma not_prefixFree_iff {tokens : List Token} : ¬ PrefixFree (tokens.map Token.path) ↔
    ∃ t ∈ tokens, ∃ u ∈ tokens, t.path <+: u.path ∧ t.path ≠ u.path := by
  simp [PrefixFree]

/-- The last of several tokens is found at its path, and the others at other paths. -/
lemma TokenList.get?_concat (tokens : List Token) (t : Token) (path : Path) :
    TokenList.get? ⟨tokens ++ [t]⟩ path
      = if t.path = path then some t else TokenList.get? ⟨tokens⟩ path := by
  rw [TokenList.get?, List.reverse_concat, TokenList.get?]
  by_cases h : t.path = path
  · rw [if_pos h, List.find?_cons_of_pos (by simpa using h)]
  · rw [if_neg h, List.find?_cons_of_neg (by simpa using h)]

/-- Some token is found at the path of a token of the list. -/
lemma TokenList.exists_get?_of_mem {c : TokenList} {t : Token} (h : t ∈ c.tokens) :
    ∃ u, c.get? t.path = some u :=
  Option.isSome_iff_exists.mp (List.find?_isSome.mpr ⟨t, List.mem_reverse.mpr h, by simp⟩)

namespace NameTree

variable {tokens : List Token} {t : Token} {entries entries' : List (String × NameTree)} {path : Path}

/-! ### Trees of tokens -/

/-- The keys by which the paths of tokens go on from a path. -/
def keysFrom (tokens : List Token) (path : Path) : List String :=
  tokens.filterMap fun t => Path.next? path t.path

/-- The tree has a name at a path exactly if the last token with this path has the name. It has a
group at its root and wherever the path of a token goes on, and the keys of a group stand in the
order in which the tokens have them first. -/
structure Arranges (c : TokenList) (tree : NameTree) : Prop where
  leaf : ∀ path name,
    tree.at? path = some (.leaf name) ↔ ∃ t, c.get? path = some t ∧ t.name = name
  group : ∀ path, (∃ entries, tree.at? path = some (.group entries)) ↔
    path = [] ∨ ∃ t ∈ c.tokens, path <+: t.path ∧ path ≠ t.path
  keys : ∀ path entries, tree.at? path = some (.group entries) →
    entries.map Prod.fst = (keysFrom c.tokens path).eraseDups

lemma keysFrom_concat (tokens : List Token) (t : Token) (path : Path) :
    keysFrom (tokens ++ [t]) path = keysFrom tokens path ++ (Path.next? path t.path).toList := by
  rw [keysFrom, List.filterMap_append, keysFrom]
  cases h : Path.next? path t.path <;> simp [h]

lemma arranges_nil : Arranges ⟨[]⟩ (.group []) := by
  have hnone : ∀ q : Path, q ≠ [] → at? (.group []) q = none := by
    intro q hq
    obtain ⟨k, rest, rfl⟩ := List.exists_cons_of_ne_nil hq
    rfl
  refine ⟨fun q name => ?_, fun q => ?_, fun q inner h => ?_⟩
  · cases q with
    | nil => simp [at?, TokenList.get?]
    | cons k q => simp [hnone, TokenList.get?]
  · cases q with
    | nil => simp [at?]
    | cons k q => simp [hnone]
  · cases q with
    | nil => simpa [at?, keysFrom] using h
    | cons k q => exact absurd h (by simp [hnone])

/-- The keys at a path, also where there is no group, are those by which tokens go on. -/
lemma Arranges.keysAt_eq (h : Arranges ⟨tokens⟩ (.group entries)) (path : Path) :
    keysAt entries path = (keysFrom tokens path).eraseDups := by
  rw [keysAt]
  split
  · next inner hinner => exact h.keys path inner hinner
  · next hgroup =>
      -- no token goes on from the path, since it would have a group there
      have hnone : keysFrom tokens path = [] := by
        refine List.filterMap_eq_nil_iff.mpr fun t ht => ?_
        by_contra hnext
        obtain ⟨key, hkey⟩ := Option.ne_none_iff_exists'.mp hnext
        obtain ⟨inner, hinner⟩ :=
          (h.group path).mpr (.inr ⟨t, ht, Path.exists_next?_iff.mp ⟨key, hkey⟩⟩)
        exact hgroup inner hinner
      rw [hnone]
      rfl

/-- What is in the way of a token is the shorter one of two paths, its own and that of a token of the
tree. -/
lemma Arranges.exists_of_blocks (h : Arranges ⟨tokens⟩ (.group entries)) (hpath : t.path ≠ [])
    {q : Path} (hq : Blocks entries t.path q) :
    ∃ u ∈ tokens ++ [t], ∃ w ∈ tokens ++ [t], u.path <+: w.path ∧ u.path ≠ w.path ∧ q = u.path := by
  rcases hq with ⟨hwithin, hne, n, hn⟩ | ⟨rfl, hgroup⟩
  · obtain ⟨u, hu, -⟩ := (h.leaf q n).mp hn
    have hmem : u ∈ tokens := List.mem_reverse.mp (List.mem_of_find?_eq_some hu)
    obtain rfl := TokenList.path_of_get? hu
    exact ⟨u, by simp [hmem], t, by simp, hwithin, hne, rfl⟩
  · obtain ⟨w, hw, hwithin, hne⟩ := ((h.group t.path).mp hgroup).resolve_left hpath
    exact ⟨t, by simp, w, by simp [hw], hwithin, hne, rfl⟩

/-- If nothing is in the way of a token, the paths of all tokens do not run through each other. -/
lemma Arranges.prefixFree_concat (h : Arranges ⟨tokens⟩ (.group entries))
    (hapart : PrefixFree (tokens.map Token.path)) (hfree : ∀ q, ¬ Blocks entries t.path q) :
    PrefixFree ((tokens ++ [t]).map Token.path) := by
  have hthrough : ∀ u ∈ tokens, u.path <+: t.path → u.path = t.path := by
    intro u hu hut
    by_contra hne
    obtain ⟨w, hw⟩ := @TokenList.exists_get?_of_mem ⟨tokens⟩ u hu
    exact hfree _ (.inl ⟨hut, hne, w.name, (h.leaf _ _).mpr ⟨w, hw, rfl⟩⟩)
  have hend : ∀ u ∈ tokens, t.path <+: u.path → t.path = u.path := by
    intro u hu htu
    by_contra hne
    exact hfree _ (.inr ⟨rfl, (h.group t.path).mpr (.inr ⟨u, hu, htu, hne⟩)⟩)
  rw [List.map_append, List.map_singleton]
  intro p hp q hq hpq
  rcases List.mem_append.mp hp with hp | hp <;> rcases List.mem_append.mp hq with hq | hq
  · exact hapart p hp q hq hpq
  · obtain ⟨u, hu, rfl⟩ := List.mem_map.mp hp
    obtain rfl := List.mem_singleton.mp hq
    exact hthrough u hu hpq
  · obtain rfl := List.mem_singleton.mp hp
    obtain ⟨u, hu, rfl⟩ := List.mem_map.mp hq
    exact hend u hu hpq
  · rw [List.mem_singleton.mp hp, List.mem_singleton.mp hq]

/-- **A tree of tokens in which one more name is put is a tree of these tokens and one more.** -/
theorem Arranges.concat (h : Arranges ⟨tokens⟩ (.group entries))
    (hputs : Puts t.name t.path entries entries') (hfree : ∀ q, ¬ Blocks entries t.path q) :
    Arranges ⟨tokens ++ [t]⟩ (.group entries') := by
  refine ⟨fun q name => ?_, fun q => ?_, fun q inner hinner => ?_⟩
  · rw [hputs.leaf_iff hfree, TokenList.get?_concat, h.leaf]
    split <;> simp
  · rw [hputs.group_iff hfree, h.group]
    simp [or_and_right, exists_or, or_assoc]
  · have hkeys : inner.map Prod.fst = keysAt entries' q := by rw [keysAt, hinner]
    rw [hkeys, keysFrom_concat]
    cases hnext : Path.next? q t.path with
    | some key =>
        rw [hputs.keys q key hnext, h.keysAt_eq q, Option.toList_some, eraseDups_concat]
        simp only [List.mem_eraseDups]
    | none =>
        rw [hputs.keysAt_of_next?_eq_none hfree hnext, h.keysAt_eq q, Option.toList_none,
          List.append_nil]

/-! ### All tokens one after the other -/

lemma entriesOf_concat (tokens : List Token) (t : Token) :
    entriesOf (tokens ++ [t])
      = entriesOf tokens >>= fun entries => insert t.name [] t.path entries := by
  rw [entriesOf, List.foldlM_append]
  exact bind_congr fun entries => bind_pure _

/-- **Tokens form a tree, or the path of one runs through that of another one.** The shorter path is
reported. -/
theorem entriesOf_cases (hpaths : ∀ t ∈ tokens, t.path ≠ []) :
    (∃ entries, entriesOf tokens = .ok entries ∧ Arranges ⟨tokens⟩ (.group entries) ∧
      PrefixFree (tokens.map Token.path)) ∨
    ∃ t ∈ tokens, ∃ u ∈ tokens, t.path <+: u.path ∧ t.path ≠ u.path ∧
      entriesOf tokens = .error (.tokenAndGroup t.path) := by
  induction tokens using List.reverseRecOn with
  | nil => exact .inl ⟨[], rfl, arranges_nil, by simp [PrefixFree]⟩
  | append_singleton tokens t ih =>
      rw [entriesOf_concat]
      rcases ih (fun u hu => hpaths u (by simp [hu])) with
        ⟨entries, hentries, harranges, hapart⟩ | ⟨u, hu, w, hw, huw, hne, herror⟩
      · have hpath : t.path ≠ [] := hpaths t (by simp)
        rw [hentries, ok_bind]
        rcases insert_cases t.name [] entries hpath with
          ⟨entries', hinsert, hputs, hfree⟩ | ⟨q, hq, herror⟩
        · exact .inl ⟨entries', hinsert, harranges.concat hputs hfree,
            harranges.prefixFree_concat hapart hfree⟩
        · obtain ⟨u, hu, w, hw, huw, hne, rfl⟩ := harranges.exists_of_blocks hpath hq
          exact .inr ⟨u, hu, w, hw, huw, hne, herror⟩
      · refine .inr ⟨u, by simp [hu], w, by simp [hw], huw, hne, ?_⟩
        rw [herror]
        rfl

/-- Tokens whose paths do not run through each other form a tree. -/
lemma exists_arranges (hpaths : ∀ t ∈ tokens, t.path ≠ [])
    (hfree : PrefixFree (tokens.map Token.path)) :
    ∃ tree, ofTokens tokens = .ok tree ∧ Arranges ⟨tokens⟩ tree := by
  rcases entriesOf_cases hpaths with ⟨entries, hentries, harranges, -⟩ | ⟨t, ht, u, hu, htu, hne, -⟩
  · refine ⟨.group entries, ?_, harranges⟩
    rw [ofTokens, hentries]
    rfl
  · exact absurd hfree (not_prefixFree_iff.mpr ⟨t, ht, u, hu, htu, hne⟩)

/-- **Tokens with distinct paths, none of which runs through another one, form a tree** that has the
name of every token at its path. -/
theorem exists_ofTokens (hpaths : ∀ t ∈ tokens, t.path ≠ [])
    (hnodup : (tokens.map Token.path).Nodup) (hfree : PrefixFree (tokens.map Token.path)) :
    ∃ tree, ofTokens tokens = .ok tree ∧ ∀ t ∈ tokens, tree.at? t.path = some (.leaf t.name) := by
  obtain ⟨tree, htree, harranges⟩ := exists_arranges hpaths hfree
  refine ⟨tree, htree, fun t ht => (harranges.leaf _ _).mpr ⟨t, ?_, rfl⟩⟩
  exact (@TokenList.get?_eq_some_iff ⟨tokens⟩ hnodup _ _).mpr ⟨ht, rfl⟩

/-- The only empty group is the tree of no tokens. -/
lemma Arranges.eq_nil_of_empty {c : TokenList} {tree : NameTree} (h : Arranges c tree)
    (hpaths : ∀ t ∈ c.tokens, t.path ≠ []) (hempty : tree.at? path = some (.group [])) :
    path = [] ∧ c.tokens = [] := by
  have hkeys : keysFrom c.tokens path = [] := by
    refine List.eq_nil_iff_forall_not_mem.mpr fun key hkey => ?_
    have hmem := List.mem_eraseDups.mpr hkey
    rw [← h.keys path [] hempty] at hmem
    exact absurd hmem (by simp)
  have hnext : ∀ t ∈ c.tokens, ¬ (path <+: t.path ∧ path ≠ t.path) := by
    intro t ht hon
    obtain ⟨key, hkey⟩ := Path.exists_next?_iff.mpr hon
    exact absurd ((List.filterMap_eq_nil_iff.mp hkeys t ht).symm.trans hkey) (by simp)
  have hroot : path = [] := by
    rcases (h.group path).mp ⟨[], hempty⟩ with hroot | ⟨t, ht, hon⟩
    · exact hroot
    · exact absurd hon (hnext t ht)
  refine ⟨hroot, List.eq_nil_iff_forall_not_mem.mpr fun t ht => hnext t ht ?_⟩
  rw [hroot]
  exact ⟨List.nil_prefix, Ne.symm (hpaths t ht)⟩

end NameTree

/-! ### The tokens of one document -/

lemma PrefixFree.append {ps qs : List Path} (hps : PrefixFree ps) (hqs : PrefixFree qs)
    (hapart : ∀ p ∈ ps, ∀ q ∈ qs, ¬ p <+: q ∧ ¬ q <+: p) : PrefixFree (ps ++ qs) := by
  intro p hp q hq hpq
  rcases List.mem_append.mp hp with hp | hp <;> rcases List.mem_append.mp hq with hq | hq
  · exact hps p hp q hq hpq
  · exact absurd hpq (hapart p hp q hq).1
  · exact absurd hpq (hapart q hq p hp).2
  · exact hqs p hp q hq hpq

namespace Document

variable {label : String}

mutual

/-- The paths of the tokens at a key do not run through each other if no group below has a key
twice. -/
theorem prefixFree_tokensAt {path : Path} {key : String} : ∀ {x : Json},
    (∀ g ∈ x.groups, (g.map Prod.fst).Nodup) →
      PrefixFree ((tokensAt label path key x).map Token.path)
  | .null, _ => by simp [tokensAt, PrefixFree]
  | .bool _, _ => by simp [tokensAt, PrefixFree]
  | .int _, _ => by simp [tokensAt, PrefixFree]
  | .float _, _ => by simp [tokensAt, PrefixFree]
  | .str _, _ => by simp [tokensAt, PrefixFree]
  | .arr _, _ => by simp [tokensAt, PrefixFree]
  | .obj fields, h => by
      rw [tokensAt]
      split
      · -- a token is not looked into
        simp [PrefixFree]
      · next hvalue =>
          rw [Json.groups_obj (by simpa using hvalue), List.forall_mem_cons] at h
          split
          · simp [PrefixFree]
          · exact prefixFree_tokensIn h.1 h.2

/-- The same for the entries of an object. -/
theorem prefixFree_tokensIn {path : Path} : ∀ {fields : List (String × Json)},
    (fields.map Prod.fst).Nodup → (∀ g ∈ Json.groupsIn fields, (g.map Prod.fst).Nodup) →
      PrefixFree ((tokensIn label path fields).map Token.path)
  | [], _, _ => by simp [tokensIn, PrefixFree]
  | (key, x) :: rest, hkeys, h => by
      rw [List.map_cons, List.nodup_cons] at hkeys
      rw [Json.groupsIn, List.forall_mem_append] at h
      rw [tokensIn, List.map_append]
      refine (prefixFree_tokensAt h.1).append (prefixFree_tokensIn hkeys.2 h.2) fun p hp q hq => ?_
      -- the paths of both parts go on with different keys
      obtain ⟨t, ht, rfl⟩ := List.mem_map.mp hp
      obtain ⟨u, hu, rfl⟩ := List.mem_map.mp hq
      obtain ⟨keys, node, rfl, -⟩ := exists_at_of_mem_tokensAt h.1 ht
      obtain ⟨next, keys', node', rfl, -, -, hnext, -⟩ := exists_at_of_mem_tokensIn hkeys.2 h.2 hu
      have hne : key ≠ next := fun e => hkeys.1 (e ▸ hnext)
      simp [Token.ofNode, List.prefix_append_right_inj, List.cons_prefix_cons, hne, hne.symm]

end

/-- The paths of the tokens of a document do not run through each other. -/
lemma prefixFree_flatten {doc : Document} (h : doc.fields.HasDistinctKeys) :
    PrefixFree (doc.flatten.map Token.path) := by
  obtain ⟨hroot, hgroups⟩ := Fields.forall_mem_groups.mp h
  exact prefixFree_tokensIn hroot hgroups

end Document

/-- Neither do those of the tokens that one document is resolved to. -/
lemma prefixFree_of_resolve {doc : Document} {c : TokenList} (h : doc.fields.HasDistinctKeys)
    (hresolve : resolve [doc] = .ok c) : PrefixFree (c.tokens.map Token.path) := by
  have hmem : ∀ p, p ∈ c.tokens.map Token.path → p ∈ doc.flatten.map Token.path := by
    intro p hp
    rw [paths_of_resolve hresolve, definedPaths, List.mem_eraseDups] at hp
    simpa using hp
  exact fun p hp q hq => Document.prefixFree_flatten h p (hmem p hp) q (hmem q hq)

namespace NameTree

/-- **Which tokens form a tree, and what it is like.** Tokens fail to form a tree exactly if the path
of one of them runs through that of another one, in whatever order they come; such a path is
reported. Otherwise the tree has names exactly at the paths of tokens, that of the last token with
the path, and groups exactly at the root and on the way to tokens; the keys of every group come in
the order in which the tokens have them first, and no group is empty but the tree of no tokens. The
tokens that one document is resolved to always form a tree. -/
theorem ofTokens_arranges :
    (∀ c : TokenList, (∀ t ∈ c.tokens, t.path ≠ []) →
      ((∃ e, ofTokens c.tokens = .error e) ↔
        ∃ t ∈ c.tokens, ∃ u ∈ c.tokens, t.path <+: u.path ∧ t.path ≠ u.path) ∧
      (∀ e, ofTokens c.tokens = .error e → ∃ t ∈ c.tokens, ∃ u ∈ c.tokens,
        t.path <+: u.path ∧ t.path ≠ u.path ∧ e = .tokenAndGroup t.path) ∧
      ∀ tree, ofTokens c.tokens = .ok tree → Arranges c tree ∧
        ∀ path, tree.at? path = some (.group []) → path = [] ∧ c.tokens = []) ∧
    ∀ doc c, doc.fields.HasDistinctKeys → resolve [doc] = .ok c →
      ∃ tree, ofTokens c.tokens = .ok tree := by
  refine ⟨fun c hpaths => ?_, fun doc c hkeys hresolve => ?_⟩
  · rcases entriesOf_cases hpaths with
      ⟨entries, hentries, harranges, hfree⟩ | ⟨t, ht, u, hu, htu, hne, herror⟩
    · have htree : ofTokens c.tokens = .ok (.group entries) := by
        rw [ofTokens, hentries]
        rfl
      rw [htree]
      refine ⟨iff_of_false (by simp) fun h => not_prefixFree_iff.mpr h hfree, by simp, ?_⟩
      rintro tree ⟨⟩
      exact ⟨harranges, fun path => harranges.eq_nil_of_empty hpaths⟩
    · have hfail : ofTokens c.tokens = .error (.tokenAndGroup t.path) := by
        rw [ofTokens, herror]
        rfl
      rw [hfail]
      refine ⟨iff_of_true ⟨_, rfl⟩ ⟨t, ht, u, hu, htu, hne⟩, ?_, by simp⟩
      rintro e ⟨⟩
      exact ⟨t, ht, u, hu, htu, hne, rfl⟩
  · obtain ⟨tree, htree, -⟩ := exists_arranges
      (fun t ht => path_ne_nil_of_mem_resolve hresolve ht) (prefixFree_of_resolve hkeys hresolve)
    exact ⟨tree, htree⟩

/-- Gaps in one group with a size between them, which comes once more under another name. -/
def scatteredGaps : TokenList :=
  ⟨[{ path := ["gap", "small"], value := .int 4, name := "gapSmall" },
    { path := ["size"], value := .int 16, name := "size" },
    { path := ["gap", "wide"], value := .int 8, name := "gapWide" },
    { path := ["size"], value := .int 20, name := "lateSize" }]⟩

/-- A gap where the others have their group. -/
def groupedGap : Token := { path := ["gap"], value := .int 6, name := "gap" }

/-- The gaps come together in the place of the first one, and the size has its last name. One more gap
at their group is refused, and a document has no such tokens. -/
theorem ofTokens_arranges_scattered :
    (∃ tree entries, ofTokens scatteredGaps.tokens = .ok tree ∧
      tree.at? ["size"] = some (.leaf "lateSize") ∧
      tree.at? [] = some (.group entries) ∧ entries.map Prod.fst = ["gap", "size"]) ∧
    (∃ e, ofTokens (scatteredGaps.tokens ++ [groupedGap]) = .error e) ∧
    describedSizes.fields.HasDistinctKeys ∧
      ∃ c tree, resolve [describedSizes] = .ok c ∧ ofTokens c.tokens = .ok tree := by
  obtain ⟨hlist, hdocument⟩ := ofTokens_arranges
  have hpaths : ∀ t ∈ scatteredGaps.tokens ++ [groupedGap], t.path ≠ [] := by
    have hall : ∀ p ∈ (scatteredGaps.tokens ++ [groupedGap]).map Token.path, p ≠ [] := by decide
    exact fun t ht => hall _ (List.mem_map_of_mem ht)
  refine ⟨?_, ?_, by decide, ?_⟩
  · obtain ⟨tree, htree⟩ : ∃ tree, ofTokens scatteredGaps.tokens = .ok tree := ⟨_, rfl⟩
    obtain ⟨harranges, -⟩ := (hlist scatteredGaps fun t ht => hpaths t (by simp [ht])).2.2 tree htree
    obtain ⟨entries, hentries⟩ := (harranges.group []).mpr (.inl rfl)
    exact ⟨tree, entries, htree, (harranges.leaf _ _).mpr ⟨_, rfl, rfl⟩, hentries,
      harranges.keys [] entries hentries⟩
  · refine (hlist ⟨_⟩ hpaths).1.mpr ⟨groupedGap, by simp, ?_⟩
    exact ⟨{ path := ["gap", "small"], value := .int 4, name := "gapSmall" },
      by simp [scatteredGaps], ⟨["small"], rfl⟩, by decide⟩
  · obtain ⟨c, hc⟩ : ∃ c, resolve [describedSizes] = .ok c := ⟨_, rfl⟩
    obtain ⟨tree, htree⟩ := hdocument describedSizes c (by decide) hc
    exact ⟨c, tree, hc, htree⟩

end NameTree

end StyleTokens
