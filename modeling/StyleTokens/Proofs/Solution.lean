import StyleTokens.Proofs.Evaluation

/-!
The values of resolved documents.

* `TokenList.values`: the values of the tokens of a list by their paths;
* `exists_ordered_of_resolve`: resolved tokens are the definitions of the documents, with values
  found one after the other;
* `justified_of_resolve`: documents that cannot be resolved are refused for a reason that is so;
* `resolve_solves_iff`: the resolved values are the only solution of the equations of the
  definitions, and every order of visits gives them;
* `Closed`, `Acyclic`, `resolve_ok_iff`: documents can be resolved exactly if every reference names
  a definition and no references lead back to where they began.
-/

namespace StyleTokens

/-- The values of the tokens of a list by their paths. -/
def TokenList.values (c : TokenList) : Values := fun path => (c.get? path).map Token.value

/-- Does every reference of a definition name a definition? -/
def Closed (defs : Path → Option Token) : Prop := ∀ p q, Refers defs p q → ∃ t, defs q = some t

/-- Do no references lead back to where they began? -/
def Acyclic (defs : Path → Option Token) : Prop :=
  ∀ p, ¬ Relation.TransGen (Refers defs) p p

/-- Can the type tag of the token be looked up: is it neither a list nor an object? -/
def Token.HasPlainTag (t : Token) : Prop :=
  (∀ items, t.tag ≠ .arr items) ∧ ∀ fields, t.tag ≠ .obj fields

instance (t : Token) : Decidable t.HasPlainTag :=
  match htag : t.tag with
  | .arr items => isFalse fun h => h.1 items htag
  | .obj fields => isFalse fun h => h.2 fields htag
  | .null | .bool _ | .int _ | .float _ | .str _ =>
      isTrue ⟨fun _ h => by simp [htag] at h, fun _ h => by simp [htag] at h⟩

/-! ### What resolving gives -/

section Resolved

variable {docs : List Document} {c : TokenList}

/-- The look-up in the merged table is that of the last definitions. -/
lemma get?_table (docs : List Document) :
    (TokenTable.ofDocuments docs).get? = lastDefinition docs :=
  funext (TokenTable.get?_ofDocuments docs)

/-- The merged table has one definition for each path. -/
lemma nodup_table (docs : List Document) :
    ((TokenTable.ofDocuments docs).map Token.path).Nodup :=
  TokenTable.nodup_ofTokens _

/-- The members of the merged table are the last definitions. -/
lemma mem_table_iff {t : Token} :
    t ∈ TokenTable.ofDocuments docs ↔ lastDefinition docs t.path = some t := by
  rw [← get?_table, TokenTable.get?_eq_some_iff (nodup_table docs)]
  simp

/-- Resolving the definitions of documents in any order, with any values that are already known. -/
lemma settles_resolveEach {Inv : Memo → Prop}
    (hInv : TokenTable.KeptByFinding (lastDefinition docs) Inv) {visited : List Token}
    (hvisited : ∀ t ∈ visited, lastDefinition docs t.path = some t) {memo : Memo}
    (hmemo : Inv memo) :
    TokenTable.Settles Inv (lastDefinition docs) visited memo
      ((TokenTable.ofDocuments docs).resolveEach visited memo) := by
  rw [← get?_table] at hInv hvisited ⊢
  exact TokenTable.resolveEach_spec hInv hvisited hmemo

/-- Resolving documents finds values one after the other, or fails for a reason that is so. -/
lemma settles_resolution (docs : List Document) :
    TokenTable.Settles (Memo.Ordered (lastDefinition docs)) (lastDefinition docs)
      (TokenTable.ofDocuments docs) [] (resolution docs) :=
  settles_resolveEach Memo.Ordered.keptByFinding (fun _ ht => mem_table_iff.mp ht) .nil

/-- Resolved tokens are the definitions of the documents, each with the value that was found for its
path. -/
theorem exists_ordered_of_resolve (h : resolve docs = .ok c) :
    ∃ memo : Memo, memo.Ordered (lastDefinition docs) ∧
      (∀ p t, lastDefinition docs p = some t → ∃ v, memo.values p = some v) ∧
      (∀ p t, lastDefinition docs p = some t → ∃ known, t.hasKnownTag = .ok known) ∧
      c.tokens = (TokenTable.ofDocuments docs).map (Token.settled memo.values) := by
  have hspec := settles_resolution docs
  have hmem : ∀ {p t}, lastDefinition docs p = some t →
      t ∈ TokenTable.ofDocuments docs ∧ t.path = p := by
    intro p t ht
    have hpath := path_of_lastDefinition ht
    exact ⟨mem_table_iff.mpr (by rw [hpath, ht]), hpath⟩
  rw [resolve] at h
  rw [TokenTable.Settles] at hspec
  split at h
  · next hnone =>
      rw [hnone] at hspec
      obtain ⟨memo, hordered, -, hall, htags, htokens⟩ := hspec
      refine ⟨memo, hordered, fun p t ht => ?_, fun p t ht => htags t (hmem ht).1, ?_⟩
      · obtain ⟨htable, rfl⟩ := hmem ht
        exact hall t htable
      · rw [← htokens, ← Except.ok.inj h]
  · exact absurd h (by simp)

/-- Documents that cannot be resolved are refused for a reason that is so. -/
theorem justified_of_resolve {e : ResolveError} (h : resolve docs = .error e) :
    e.Justified (lastDefinition docs) := by
  have hspec := settles_resolution docs
  rw [resolve] at h
  rw [TokenTable.Settles] at hspec
  split at h
  · exact absurd h (by simp)
  · next e' he =>
      rw [he] at hspec
      rwa [← Except.error.inj h]

/-- The values of resolved tokens are those that were found. -/
lemma values_eq_of_tokens {memo : Memo} (hordered : memo.Ordered (lastDefinition docs))
    (hall : ∀ p t, lastDefinition docs p = some t → ∃ v, memo.values p = some v)
    (htokens : c.tokens = (TokenTable.ofDocuments docs).map (Token.settled memo.values)) :
    c.values = memo.values := by
  have hnodup : (c.tokens.map Token.path).Nodup := by
    rw [htokens, List.map_map]
    exact nodup_table docs
  funext p
  cases hp : memo.values p with
  | some v =>
      obtain ⟨t, ht, -⟩ := hordered.substituted hp
      have hpath := path_of_lastDefinition ht
      have hget : c.get? p = some (t.settled memo.values) := by
        rw [TokenList.get?_eq_some_iff hnodup, htokens]
        exact ⟨List.mem_map_of_mem (mem_table_iff.mpr (by rw [hpath, ht])), hpath⟩
      simp [TokenList.values, hget, Token.settled, Token.resolved, hpath, hp]
  | none =>
      cases hget : c.get? p with
      | none => simp [TokenList.values, hget]
      | some u =>
          obtain ⟨hu, rfl⟩ := (TokenList.get?_eq_some_iff hnodup).mp hget
          rw [htokens] at hu
          obtain ⟨t, ht, rfl⟩ := List.mem_map.mp hu
          obtain ⟨v, hv⟩ := hall t.path t (mem_table_iff.mp ht)
          exact absurd (hp.symm.trans hv) (by simp)

/-- From a path with a resolved value no references lead on for ever. -/
lemma acc_of_resolve (h : resolve docs = .ok c) {p : Path} {v : Json} (hv : c.values p = some v) :
    Acc (fun q p => Refers (lastDefinition docs) p q) p := by
  obtain ⟨memo, hordered, hall, -, htokens⟩ := exists_ordered_of_resolve h
  rw [values_eq_of_tokens hordered hall htokens] at hv
  exact hordered.acc hv

/-- Every resolved token is a definition with the value of its path. -/
lemma tokens_of_resolve (h : resolve docs = .ok c) :
    c.tokens = (TokenTable.ofDocuments docs).map (Token.settled c.values) := by
  obtain ⟨memo, hordered, hall, -, htokens⟩ := exists_ordered_of_resolve h
  rw [values_eq_of_tokens hordered hall htokens, htokens]

/-- Documents that can be resolved have no dangling references and no cycles. -/
lemma closed_acyclic_of_resolve (h : resolve docs = .ok c) :
    Closed (lastDefinition docs) ∧ Acyclic (lastDefinition docs) := by
  obtain ⟨memo, hordered, hall, -, -⟩ := exists_ordered_of_resolve h
  constructor
  · intro p q hpq
    obtain ⟨t, ht, -⟩ := id hpq
    obtain ⟨v, hv⟩ := hall p t ht
    obtain ⟨w, hw⟩ := hordered.values_of_refers hv hpq
    obtain ⟨u, hu, -⟩ := hordered.substituted hw
    exact ⟨u, hu⟩
  · intro p hcycle
    obtain ⟨q, ⟨t, ht, -⟩, -⟩ := Relation.TransGen.head'_iff.mp hcycle
    obtain ⟨v, hv⟩ := hall p t ht
    exact not_transGen_of_acc (hordered.acc hv) hcycle

/-- Where all type tags can be looked up, a justified failure is one for a cycle that there is, or
for a reference that names no path. -/
lemma circular_or_dangling {defs : Path → Option Token}
    (htags : ∀ p t, defs p = some t → ∃ known, t.hasKnownTag = .ok known) {e : ResolveError}
    (h : e.Justified defs) :
    (∃ chain, e = .circular chain ∧ ∃ p ∈ chain, Relation.TransGen (Refers defs) p p) ∨
    ∃ owner reference, e = .dangling owner reference ∧
      ∃ t, defs owner = some t ∧ reference ∈ t.value.references ∧
        defs (Reference.target reference) = none := by
  cases e with
  | circular chain =>
      obtain ⟨p, between, rfl, -, hchain⟩ := h
      exact .inl ⟨_, rfl, p, by simp, transGen_of_isChain hchain⟩
  | dangling owner reference => exact .inr ⟨owner, reference, rfl, h⟩
  | compositeTag kind =>
      obtain ⟨p, t, ht, htag⟩ := h
      obtain ⟨known, hknown⟩ := htags p t ht
      rw [htag] at hknown
      exact absurd hknown (by simp)

/-- Without dangling references, cycles and type tags that cannot be looked up, no failure is
justified. -/
lemma not_justified {defs : Path → Option Token} (hclosed : Closed defs) (hacyclic : Acyclic defs)
    (htags : ∀ p t, defs p = some t → ∃ known, t.hasKnownTag = .ok known) (e : ResolveError) :
    ¬ e.Justified defs := by
  intro h
  rcases circular_or_dangling htags h with
    ⟨chain, -, p, -, hcycle⟩ | ⟨owner, reference, -, t, ht, hreference, hnone⟩
  · exact hacyclic p hcycle
  · obtain ⟨u, hu⟩ := hclosed owner _ ⟨t, ht, reference, hreference, rfl⟩
    rw [hnone] at hu
    exact absurd hu (by simp)

/-! ### The values as a solution -/

/-- The resolved values solve the equations of the definitions. -/
lemma solves_values (h : resolve docs = .ok c) : Solves (lastDefinition docs) c.values := by
  obtain ⟨memo, hordered, hall, -, htokens⟩ := exists_ordered_of_resolve h
  rw [values_eq_of_tokens hordered hall htokens]
  intro p
  split
  · next t ht =>
      obtain ⟨v, hv⟩ := hall p t ht
      obtain ⟨u, hu, hsub⟩ := hordered.substituted hv
      rw [ht] at hu
      obtain rfl := Option.some.inj hu
      exact ⟨v, hv, hsub⟩
  · next hnone =>
      cases hp : memo.values p with
      | none => rfl
      | some v =>
          obtain ⟨t, ht, -⟩ := hordered.substituted hp
          rw [hnone] at ht
          exact absurd ht (by simp)

/-- A resolved token declares what the definition of its path holds, and has the value of that
path. -/
lemma definition_of_mem_resolve (h : resolve docs = .ok c) {t : Token} (ht : t ∈ c.tokens) :
    ∃ u, lastDefinition docs t.path = some u ∧ t.declared = u.value ∧
      c.values t.path = some t.value := by
  rw [tokens_of_resolve h] at ht
  obtain ⟨u, hu, rfl⟩ := List.mem_map.mp ht
  have hlast := mem_table_iff.mp hu
  obtain ⟨doc, -, hmem⟩ := exists_of_lastDefinition hlast
  obtain ⟨v, hv, -⟩ := (solves_values h).exists_value hlast
  refine ⟨u, hlast, Document.declared_of_mem_flatten hmem, ?_⟩
  simp [Token.settled, Token.resolved, hv]

/-- No other values solve the equations. -/
lemma eq_values_of_solves (h : resolve docs = .ok c) {values : Values}
    (hsolves : Solves (lastDefinition docs) values) : values = c.values := by
  obtain ⟨memo, hordered, hall, -, htokens⟩ := exists_ordered_of_resolve h
  rw [values_eq_of_tokens hordered hall htokens]
  funext p
  have hp := hsolves p
  have hmemo := solves_values h p
  rw [values_eq_of_tokens hordered hall htokens] at hmemo
  split at hp
  · next t ht =>
      obtain ⟨v, hv⟩ := hall p t ht
      rw [hv, hordered.le_of_solves hsolves p v hv]
  · next hnone =>
      rw [hnone] at hmemo
      rw [hp, hmemo]

/-- Finding values from right ones gives right ones. -/
lemma keptByFinding_le_values (h : resolve docs = .ok c) :
    TokenTable.KeptByFinding (lastDefinition docs) fun memo => memo.values.Le c.values := by
  intro memo t v hle ht _ hv p w hp
  rw [Memo.values_cons] at hp
  split at hp
  · next hpath =>
      obtain ⟨u, hu, hsub⟩ := (solves_values h).exists_value ht
      rw [hpath, hu, ← (hv.le hle).unique hsub, hp]
  · exact hle p w hp

/-- **The resolved values are the only solution of the equations of the definitions**: the value of
a path is that of its last definition, in which a string that is one reference is replaced by the
value that it names, a reference inside a longer string by the text of that value, lists and objects
are rewritten element by element, and all else stays. Hence the values do not depend on the order
in which the definitions are visited, nor on which right values are already known. -/
theorem resolve_solves_iff (h : resolve docs = .ok c) :
    (∀ values, Solves (lastDefinition docs) values ↔ values = c.values) ∧
    ∀ (visited : List Token) (memo : Memo),
      (∀ t ∈ visited, lastDefinition docs t.path = some t) → memo.values.Le c.values →
        (TokenTable.ofDocuments docs).resolveEach visited memo
          = ⟨visited.map (Token.settled c.values), none⟩ := by
  refine ⟨fun values => ⟨eq_values_of_solves h, fun heq => heq ▸ solves_values h⟩, ?_⟩
  intro visited memo hvisited hmemo
  have hspec := settles_resolveEach (keptByFinding_le_values h) hvisited hmemo
  obtain ⟨hclosed, hacyclic⟩ := closed_acyclic_of_resolve h
  obtain ⟨-, -, -, htags, -⟩ := exists_ordered_of_resolve h
  rw [TokenTable.Settles] at hspec
  generalize (TokenTable.ofDocuments docs).resolveEach visited memo = r at hspec
  obtain ⟨tokens, failure⟩ := r
  cases failure with
  | some e => exact absurd hspec (not_justified hclosed hacyclic htags e)
  | none =>
      obtain ⟨memo', hle, -, hall, -, htokens⟩ := hspec
      rw [Resolution.mk.injEq]
      refine ⟨?_, rfl⟩
      rw [show tokens = visited.map (Token.settled memo'.values) from htokens]
      refine List.map_congr_left fun t ht => ?_
      obtain ⟨v, hv⟩ := hall t ht
      rw [Token.settled, Token.settled, hv, hle t.path v hv]

/-- A size, a gap of that size, and a border that holds the gap in a longer string. -/
def baseSizes : Document :=
  ⟨"base", [
    ("size", .obj [("value", .int 8), ("type", .str "number")]),
    ("gap", .obj [("value", .str " \x7b size \x7d ")]),
    ("edge", .obj [("value", .arr [.str "\x7bgap\x7dpx solid", .bool true])])]⟩

/-- A document that overrides the size. -/
def largeSizes : Document := ⟨"large", [("size", .obj [("value", .int 16)])]⟩

/-- The overriding size reaches the string inside the list through two references, in whichever
order the definitions are visited. -/
theorem resolve_solves_override :
    ∃ c, resolve [baseSizes, largeSizes] = .ok c ∧
      c.tokens.map Token.value
        = [.int 16, .int 16, .arr [.str "16px solid", .bool true]] ∧
      (∀ values, Solves (lastDefinition [baseSizes, largeSizes]) values ↔ values = c.values) ∧
      (TokenTable.ofDocuments [baseSizes, largeSizes]).resolveEach
          (TokenTable.ofDocuments [baseSizes, largeSizes]).reverse []
        = ⟨(TokenTable.ofDocuments [baseSizes, largeSizes]).reverse.map
            (Token.settled c.values), none⟩ := by
  obtain ⟨c, hc, hvalues⟩ : ∃ c, resolve [baseSizes, largeSizes] = .ok c ∧
      c.tokens.map Token.value
        = [.int 16, .int 16, .arr [.str "16px solid", .bool true]] := ⟨_, rfl, rfl⟩
  refine ⟨c, hc, hvalues, (resolve_solves_iff hc).1, ?_⟩
  refine (resolve_solves_iff hc).2 _ [] (fun t ht => ?_) fun p v hv => ?_
  · exact mem_table_iff.mp (List.mem_reverse.mp ht)
  · exact absurd hv (by simp [Memo.values])

/-! ### When documents can be resolved -/

/-- A plain type tag can be looked up. -/
lemma Token.HasPlainTag.exists_known {t : Token} (h : t.HasPlainTag) :
    ∃ known, t.hasKnownTag = .ok known := by
  obtain ⟨harr, hobj⟩ := h
  rw [Token.hasKnownTag]
  cases htag : t.tag with
  | arr items => exact absurd htag (harr items)
  | obj fields => exact absurd htag (hobj fields)
  | _ => simp [Json.isNull, Json.isOneOf]

/-- **Documents with plain type tags can be resolved exactly if every reference of a last definition
names a definition and no references lead back to where they began.** Otherwise they are refused
for a cycle that there is, or for a reference that names no path. -/
theorem resolve_ok_iff (htags : ∀ doc ∈ docs, ∀ t ∈ doc.flatten, t.HasPlainTag) :
    ((∃ c, resolve docs = .ok c) ↔
      Closed (lastDefinition docs) ∧ Acyclic (lastDefinition docs)) ∧
    ∀ e, resolve docs = .error e →
      (∃ chain, e = .circular chain ∧
        ∃ p ∈ chain, Relation.TransGen (Refers (lastDefinition docs)) p p) ∨
      ∃ owner reference, e = .dangling owner reference ∧
        ∃ t, lastDefinition docs owner = some t ∧ reference ∈ t.value.references ∧
          lastDefinition docs (Reference.target reference) = none := by
  have hknown : ∀ p t, lastDefinition docs p = some t → ∃ known, t.hasKnownTag = .ok known := by
    intro p t ht
    obtain ⟨doc, hdoc, hmem⟩ := exists_of_lastDefinition ht
    exact (htags doc hdoc t hmem).exists_known
  constructor
  · constructor
    · rintro ⟨c, h⟩
      exact closed_acyclic_of_resolve h
    · rintro ⟨hclosed, hacyclic⟩
      cases h : resolve docs with
      | ok c => exact ⟨c, rfl⟩
      | error e =>
          exact absurd (justified_of_resolve h) (not_justified hclosed hacyclic hknown e)
  · intro e h
    exact circular_or_dangling hknown (justified_of_resolve h)

/-- A size that refers to nothing, and to a gap that refers back to the size. -/
def circularSizes : Document :=
  ⟨"circular", [
    ("size", .obj [("value", .str "\x7bgap\x7d \x7bmissing\x7d"), ("type", .str "number")]),
    ("gap", .obj [("value", .str "\x7bsize\x7dpx"), ("type", .null)])]⟩

/-- References that a later document overrides do not count. -/
theorem resolve_ok_overridden :
    (∀ doc ∈ [circularSizes, largeSizes], ∀ t ∈ doc.flatten, t.HasPlainTag) ∧
      Closed (lastDefinition [circularSizes, largeSizes]) ∧
      Acyclic (lastDefinition [circularSizes, largeSizes]) ∧
      ¬ (Closed (lastDefinition [circularSizes]) ∧ Acyclic (lastDefinition [circularSizes])) := by
  have htags : ∀ doc ∈ [circularSizes, largeSizes], ∀ t ∈ doc.flatten, t.HasPlainTag := by decide
  have htags' : ∀ doc ∈ [circularSizes], ∀ t ∈ doc.flatten, t.HasPlainTag := by decide
  obtain ⟨hclosed, hacyclic⟩ := (resolve_ok_iff htags).1.mp ⟨_, rfl⟩
  refine ⟨htags, hclosed, hacyclic, fun h => ?_⟩
  obtain ⟨c, hc⟩ := (resolve_ok_iff htags').1.mpr h
  have herror : resolve [circularSizes] = .error (.circular [["size"], ["gap"], ["size"]]) := rfl
  rw [herror] at hc
  exact absurd hc (by simp)

end Resolved

end StyleTokens
