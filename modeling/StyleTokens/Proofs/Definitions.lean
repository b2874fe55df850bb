import StyleTokens.Proofs.Basic
import StyleTokens.Token.Resolution

/-!
The merged definitions of documents.

* `lastDefinition`: the last token that documents define at a path;
* `TokenList.get?_eq_some_iff`: look-up in a list of tokens with distinct paths;
* `TokenTable.get?_ofDocuments`: the merged table has exactly these definitions;
* `TokenTable.nodup_ofTokens`: it has one definition for each path;
* `TokenTable.get?_eq_some_iff`: its definitions are its members;
* `Document.exists_node_of_mem_flatten`: a definition is made of an object of its document.
-/

namespace StyleTokens

/-- The definition of a path that counts: the last one of the documents. -/
def lastDefinition (docs : List Document) (path : Path) : Option Token :=
  (docs.flatMap Document.flatten).reverse.find? fun t => t.path == path

/-- The last definition of a path is a definition of that path. -/
lemma path_of_lastDefinition {docs : List Document} {path : Path} {t : Token}
    (h : lastDefinition docs path = some t) : t.path = path := by
  simpa using List.find?_some h

/-- The last definition of a path stands in one of the documents. -/
lemma exists_of_lastDefinition {docs : List Document} {path : Path} {t : Token}
    (h : lastDefinition docs path = some t) : ∃ doc ∈ docs, t ∈ doc.flatten := by
  have hmem := List.mem_of_find?_eq_some h
  exact List.mem_flatMap.mp (List.mem_reverse.mp hmem)

/-! ### Tokens with distinct paths -/

/-- Among tokens with distinct paths, the one that is found at a path is the one that has it. -/
lemma find?_path_eq_some_iff {tokens : List Token} (h : (tokens.map Token.path).Nodup)
    {path : Path} {t : Token} :
    (tokens.find? fun t => t.path == path) = some t ↔ t ∈ tokens ∧ t.path = path :=
  find?_key_eq_some_iff h

/-- The same for the look-up in a list of tokens. -/
lemma TokenList.get?_eq_some_iff {c : TokenList} (h : (c.tokens.map Token.path).Nodup)
    {path : Path} {t : Token} : c.get? path = some t ↔ t ∈ c.tokens ∧ t.path = path := by
  have hreverse : (c.tokens.reverse.map Token.path).Nodup := by
    rw [List.map_reverse]
    exact List.nodup_reverse.mpr h
  rw [get?, find?_path_eq_some_iff hreverse, List.mem_reverse]

namespace TokenTable

/-! ### Tables of definitions -/

/-- A definition that is put into a table counts for its path, and other paths keep theirs. -/
lemma get?_put (table : TokenTable) (token : Token) (path : Path) :
    get? (put token table) path = if token.path = path then some token else get? table path := by
  induction table with
  | nil => by_cases h : token.path = path <;> simp [put, get?, h]
  | cons t rest ih =>
      simp only [get?] at ih ⊢
      rw [put]
      by_cases ht : t.path = token.path
      · by_cases h : token.path = path
        · simp [ht, h]
        · simp [ht, h]
      · rw [if_neg ht, List.find?_cons, List.find?_cons, ih]
        by_cases h : token.path = path
        · have hne : (t.path == path) = false := beq_false_of_ne fun e => ht (e.trans h.symm)
          simp [h, hne]
        · simp [h]

/-- Putting definitions one after the other leaves the last one of each path. -/
lemma get?_foldl_put (tokens : List Token) (table : TokenTable) (path : Path) :
    get? (tokens.foldl (fun table t => put t table) table) path
      = (tokens.reverse.find? fun t => t.path == path).or (get? table path) := by
  induction tokens generalizing table with
  | nil => simp
  | cons t rest ih =>
      rw [List.foldl_cons, ih, get?_put, List.reverse_cons, List.find?_append]
      cases rest.reverse.find? fun t => t.path == path with
      | some u => simp
      | none => by_cases h : t.path = path <;> simp [h]

/-- **The merged table has the last definition of every path.** -/
theorem get?_ofDocuments (docs : List Document) (path : Path) :
    (ofDocuments docs).get? path = lastDefinition docs path := by
  rw [ofDocuments, ofTokens, get?_foldl_put, lastDefinition]
  simp [get?]

/-- The paths of a table into which a definition is put. -/
lemma paths_put (table : TokenTable) (token : Token) :
    (put token table).map Token.path
      = if token.path ∈ table.map Token.path then table.map Token.path
        else table.map Token.path ++ [token.path] := by
  refine keys_of_put (put token) rfl (fun t rest => ?_) table
  rw [put]
  split <;> rfl

/-- A table has one definition for each path. -/
theorem nodup_ofTokens (tokens : List Token) : ((ofTokens tokens).map Token.path).Nodup :=
  nodup_keys_foldl (fun token table => paths_put table token) tokens List.nodup_nil

/-- What is found at a path is a member with that path. -/
lemma mem_of_get? {table : TokenTable} {path : Path} {t : Token} (h : table.get? path = some t) :
    t ∈ table ∧ t.path = path :=
  ⟨List.mem_of_find?_eq_some h, by simpa using List.find?_some h⟩

/-- The definitions of a table with one for each path are its members. -/
lemma get?_eq_some_iff {table : TokenTable} (h : (table.map Token.path).Nodup) {path : Path}
    {t : Token} : table.get? path = some t ↔ t ∈ table ∧ t.path = path :=
  find?_path_eq_some_iff h

end TokenTable

/-! ### Where definitions come from -/

namespace Document

mutual

/-- A token at a key is made of an object that stands there or below. -/
theorem exists_node_of_mem_tokensAt {label : String} {path : Path} {key : String} {t : Token} :
    ∀ {x : Json}, t ∈ tokensAt label path key x →
      ∃ keys fields, t = Token.ofNode label (path ++ key :: keys) fields
  | .null, h => by simp [tokensAt] at h
  | .bool _, h => by simp [tokensAt] at h
  | .int _, h => by simp [tokensAt] at h
  | .float _, h => by simp [tokensAt] at h
  | .str _, h => by simp [tokensAt] at h
  | .arr _, h => by simp [tokensAt] at h
  | .obj fields, h => by
      rw [tokensAt] at h
      split at h
      · exact ⟨[], fields, List.mem_singleton.mp h⟩
      · split at h
        · exact absurd h (by simp)
        · obtain ⟨next, keys, inner, rfl⟩ := exists_node_of_mem_tokensIn h
          exact ⟨next :: keys, inner, by simp⟩

/-- The same for the entries of an object. -/
theorem exists_node_of_mem_tokensIn {label : String} {path : Path} {t : Token} :
    ∀ {fields : List (String × Json)}, t ∈ tokensIn label path fields →
      ∃ key keys inner, t = Token.ofNode label (path ++ key :: keys) inner
  | [], h => by simp [tokensIn] at h
  | (key, x) :: rest, h => by
      rw [tokensIn] at h
      rcases List.mem_append.mp h with h | h
      · exact ⟨key, exists_node_of_mem_tokensAt h⟩
      · exact exists_node_of_mem_tokensIn h

end

variable {doc : Document} {t : Token}

/-- A token of a document is made of an object below its root. -/
theorem exists_node_of_mem_flatten (h : t ∈ doc.flatten) :
    ∃ key keys fields, t = Token.ofNode doc.label (key :: keys) fields :=
  exists_node_of_mem_tokensIn h

theorem declared_of_mem_flatten (h : t ∈ doc.flatten) : t.declared = t.value := by
  obtain ⟨key, keys, fields, rfl⟩ := exists_node_of_mem_flatten h
  rfl

theorem source_of_mem_flatten (h : t ∈ doc.flatten) : t.source = some doc.label := by
  obtain ⟨key, keys, fields, rfl⟩ := exists_node_of_mem_flatten h
  rfl

theorem path_ne_nil_of_mem_flatten (h : t ∈ doc.flatten) : t.path ≠ [] := by
  obtain ⟨key, keys, fields, rfl⟩ := exists_node_of_mem_flatten h
  exact List.cons_ne_nil key keys

end Document

end StyleTokens
