import StyleTokens.Proofs.Solution

/-!
The order and the content of merged documents.

* `definedPaths`: the paths that documents define, each at the place where it comes first;
* `paths_ofDocuments`: the merged table lists these paths in this order;
* `ofDocuments_congr`, `resolve_congr`: the paths in their order and the last definitions decide how
  documents are resolved;
* `exists_document_of_lastDefinition`: a last definition stands in the last document that defines its
  path;
* `resolve_merges`: the order and the content of resolved tokens, and documents that are repeated.
-/

namespace StyleTokens

variable {docs docs' : List Document} {c : TokenList} {path : Path} {t d : Token}

/-- The paths that documents define, each at the place where it comes first. -/
def definedPaths (docs : List Document) : List Path :=
  ((docs.flatMap Document.flatten).map Token.path).eraseDups

/-! ### The merged table -/

namespace TokenTable

/-- Definitions that are put into a table one after the other come in the order in which their paths
come first. -/
lemma paths_ofTokens (tokens : List Token) :
    (ofTokens tokens).map Token.path = (tokens.map Token.path).eraseDups := by
  induction tokens using List.reverseRecOn with
  | nil => rfl
  | append_singleton tokens t ih =>
      have hput : ofTokens (tokens ++ [t]) = put t (ofTokens tokens) := by
        simp [ofTokens, List.foldl_append]
      rw [hput, paths_put, ih, List.map_append, List.map_singleton, eraseDups_concat]
      simp only [List.mem_eraseDups]

/-- The merged table lists the paths in the order in which they come first. -/
lemma paths_ofDocuments (docs : List Document) :
    (ofDocuments docs).map Token.path = definedPaths docs :=
  paths_ofTokens _

/-- A table with one definition for each path is made of what is found at its paths. -/
lemma eq_filterMap_get? {table : TokenTable} (h : (table.map Token.path).Nodup) :
    table = (table.map Token.path).filterMap table.get? := by
  have hfound : ∀ t ∈ table, (table.get? ∘ Token.path) t = some t := by
    intro t ht
    exact (get?_eq_some_iff h).mpr ⟨ht, rfl⟩
  rw [List.filterMap_map, List.filterMap_congr hfound, List.filterMap_some]

/-- The merged table has the last definition of every path, in the order of the paths. -/
lemma ofDocuments_eq_filterMap (docs : List Document) :
    ofDocuments docs = (definedPaths docs).filterMap (lastDefinition docs) := by
  rw [← paths_ofDocuments, ← get?_table]
  exact eq_filterMap_get? (nodup_table docs)

/-- The paths in their order and the last definitions decide what the merged table is. -/
lemma ofDocuments_congr (hpaths : definedPaths docs = definedPaths docs')
    (hdefs : lastDefinition docs = lastDefinition docs') : ofDocuments docs = ofDocuments docs' := by
  rw [ofDocuments_eq_filterMap, ofDocuments_eq_filterMap, hpaths, hdefs]

end TokenTable

/-- **The paths in their order and the last definitions decide how documents are resolved**, and
whether they can be. -/
theorem resolve_congr (hpaths : definedPaths docs = definedPaths docs')
    (hdefs : lastDefinition docs = lastDefinition docs') : resolve docs = resolve docs' := by
  rw [resolve, resolve, resolution, resolution, TokenTable.ofDocuments_congr hpaths hdefs]

/-! ### Documents after each other -/

/-- The last definition in documents after each other is one of the later ones, or else one of the
earlier ones. -/
lemma lastDefinition_append (docs docs' : List Document) (path : Path) :
    lastDefinition (docs ++ docs') path
      = (lastDefinition docs' path).or (lastDefinition docs path) := by
  simp only [lastDefinition, List.flatMap_append, List.reverse_append, List.find?_append]

/-- A path without a last definition is defined nowhere. -/
lemma lastDefinition_eq_none_iff :
    lastDefinition docs path = none ↔ ∀ doc ∈ docs, ∀ u ∈ doc.flatten, u.path ≠ path := by
  simp only [lastDefinition, List.find?_eq_none, List.mem_reverse, List.mem_flatMap, beq_iff_eq]
  constructor
  · intro h doc hdoc u hu
    exact h u ⟨doc, hdoc, hu⟩
  · rintro h u ⟨doc, hdoc, hu⟩
    exact h doc hdoc u hu

/-- **A last definition stands in the last document that defines its path.** -/
theorem exists_document_of_lastDefinition (h : lastDefinition docs path = some d) :
    ∃ before doc after, docs = before ++ doc :: after ∧ d ∈ doc.flatten ∧
      ∀ later ∈ after, ∀ u ∈ later.flatten, u.path ≠ path := by
  induction docs using List.reverseRecOn with
  | nil => exact absurd h (by simp [lastDefinition])
  | append_singleton docs doc ih =>
      rw [lastDefinition_append] at h
      cases hdoc : lastDefinition [doc] path with
      | some u =>
          rw [hdoc, Option.some_or] at h
          obtain rfl := Option.some.inj h
          obtain ⟨doc', hmem, hu⟩ := exists_of_lastDefinition hdoc
          obtain rfl := List.mem_singleton.mp hmem
          exact ⟨docs, doc', [], rfl, hu, by simp⟩
      | none =>
          rw [hdoc, Option.none_or] at h
          obtain ⟨before, found, after, rfl, hd, hafter⟩ := ih h
          refine ⟨before, found, after ++ [doc], by simp, hd, fun later hlater => ?_⟩
          rcases List.mem_append.mp hlater with hlater | hlater
          · exact hafter later hlater
          · exact lastDefinition_eq_none_iff.mp hdoc later hlater

/-- Documents that are repeated define the same paths in the same order. -/
lemma definedPaths_append_self (docs : List Document) :
    definedPaths (docs ++ docs) = definedPaths docs := by
  rw [definedPaths, List.flatMap_append, List.map_append, List.eraseDups_append, definedPaths]
  have hnone : ∀ paths : List Path, paths.removeAll paths = [] := by
    intro paths
    simp [List.removeAll]
  rw [hnone, List.eraseDups_nil, List.append_nil]

/-- Documents that are repeated have the same last definitions. -/
lemma lastDefinition_append_self (docs : List Document) :
    lastDefinition (docs ++ docs) = lastDefinition docs := by
  funext path
  rw [lastDefinition_append]
  cases lastDefinition docs path <;> rfl

/-! ### Resolved tokens -/

/-- The paths of resolved tokens are those that the documents define, in the same order. -/
lemma paths_of_resolve (h : resolve docs = .ok c) : c.tokens.map Token.path = definedPaths docs := by
  rw [tokens_of_resolve h, List.map_map, ← TokenTable.paths_ofDocuments]
  rfl

/-- No two resolved tokens have the same path. -/
lemma nodup_paths_of_resolve (h : resolve docs = .ok c) : (c.tokens.map Token.path).Nodup := by
  rw [paths_of_resolve h, ← TokenTable.paths_ofDocuments]
  exact nodup_table docs

/-- A resolved token is the last definition of its path, with a value and a name. -/
lemma exists_definition_of_mem_resolve (h : resolve docs = .ok c) (ht : t ∈ c.tokens) :
    ∃ d, lastDefinition docs t.path = some d ∧ t = d.resolved t.value := by
  rw [tokens_of_resolve h] at ht
  obtain ⟨d, hd, rfl⟩ := List.mem_map.mp ht
  exact ⟨d, mem_table_iff.mp hd, rfl⟩

/-- The paths of resolved tokens are not empty. -/
lemma path_ne_nil_of_mem_resolve (h : resolve docs = .ok c) (ht : t ∈ c.tokens) : t.path ≠ [] := by
  obtain ⟨d, hd, -⟩ := exists_definition_of_mem_resolve h ht
  obtain ⟨doc, -, hmem⟩ := exists_of_lastDefinition hd
  rw [← path_of_lastDefinition hd]
  exact Document.path_ne_nil_of_mem_flatten hmem

/-- **Resolved tokens keep the first place of their path and the content of its last definition**:
every path comes once, in the order in which the paths first come up in the documents; type tag,
declared value, description and source are those of one definition, in the last document that
defines the path. Hence documents that are repeated are resolved to the same tokens. -/
theorem resolve_merges (h : resolve docs = .ok c) :
    c.tokens.map Token.path = ((docs.flatMap Document.flatten).map Token.path).eraseDups ∧
    (c.tokens.map Token.path).Nodup ∧
    (∀ t ∈ c.tokens, ∃ before doc after, docs = before ++ doc :: after ∧
      (∀ later ∈ after, ∀ u ∈ later.flatten, u.path ≠ t.path) ∧
      ∃ d ∈ doc.flatten, d.path = t.path ∧ t.tag = d.tag ∧ t.declared = d.value ∧
        t.description = d.description ∧ t.source = some doc.label) ∧
    resolve (docs ++ docs) = .ok c := by
  refine ⟨paths_of_resolve h, nodup_paths_of_resolve h, fun t ht => ?_, ?_⟩
  · obtain ⟨d, hd, hresolved⟩ := exists_definition_of_mem_resolve h ht
    obtain ⟨before, doc, after, hdocs, hmem, hafter⟩ := exists_document_of_lastDefinition hd
    have hdeclared := Document.declared_of_mem_flatten hmem
    have hsource := Document.source_of_mem_flatten hmem
    refine ⟨before, doc, after, hdocs, hafter, d, hmem, path_of_lastDefinition hd, ?_⟩
    rw [hresolved]
    exact ⟨rfl, hdeclared, rfl, hsource⟩
  · rw [resolve_congr (definedPaths_append_self docs) (lastDefinition_append_self docs), h]

/-- A size with a type tag and a description, and a gap of that size. -/
def describedSizes : Document :=
  ⟨"described", [
    ("size", .obj [("value", .int 8), ("type", .str "number"), ("description", .str "One step")]),
    ("gap", .obj [("$value", .str "\x7bsize\x7d"), ("$type", .str "dimension")])]⟩

/-- A document with a border, and a size without type tag and description. -/
def bareSizes : Document :=
  ⟨"bare", [("edge", .obj [("value", .int 1)]), ("size", .obj [("value", .int 16)])]⟩

/-- The size stays in front and takes nothing from its first definition, however often the two
documents are repeated. -/
theorem resolve_merges_bare :
    ∃ c, resolve [describedSizes, bareSizes] = .ok c ∧
      c.tokens.map (fun t => (t.path, t.tag, t.declared, t.description, t.source))
        = [(["size"], .null, .int 16, .null, some "bare"),
          (["gap"], .str "dimension", .str "\x7bsize\x7d", .null, some "described"),
          (["edge"], .null, .int 1, .null, some "bare")] ∧
      (c.tokens.map Token.path).Nodup ∧
      resolve ([describedSizes, bareSizes] ++ [describedSizes, bareSizes]) = .ok c := by
  obtain ⟨c, hc, htokens⟩ : ∃ c, resolve [describedSizes, bareSizes] = .ok c ∧
      c.tokens.map (fun t => (t.path, t.tag, t.declared, t.description, t.source))
        = [(["size"], .null, .int 16, .null, some "bare"),
          (["gap"], .str "dimension", .str "\x7bsize\x7d", .null, some "described"),
          (["edge"], .null, .int 1, .null, some "bare")] := ⟨_, rfl, rfl⟩
  obtain ⟨-, hnodup, -, htwice⟩ := resolve_merges hc
  exact ⟨c, hc, htokens, hnodup, htwice⟩

end StyleTokens
