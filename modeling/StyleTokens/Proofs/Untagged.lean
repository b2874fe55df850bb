import StyleTokens.Proofs.Findings
import StyleTokens.Proofs.Metadata
import StyleTokens.Proofs.Solution

/-!
What type tags have to do with resolving references.

* `Token.untagged`, `Json.untagged`, `Document.untagged`: tokens and documents without their type
  tags; `Document.flatten_untagged`: the tokens of a document without them;
* `TokenTable.evaluate_untagged`: the value of a token does not depend on type tags;
* `StopsAtTag`: where resolving ends for a type tag; `TokenTable.resolveEach_untagged`: up to there,
  tokens are resolved one after the other as they are without type tags;
* `resolve_compositeTag_iff`, `resolve_untagged`: the same for documents.
-/

namespace StyleTokens

/-! ### Documents without type tags -/

/-- The token without its type tag. -/
def Token.untagged (t : Token) : Token := { t with tag := .null }

namespace Fields

/-- Is there a type tag under the key? -/
def isTagKey (key : String) : Bool := key == "type" || key == "$type"

/-- The object of a token without the type tag. -/
def withoutTag (fields : Fields) : Fields := fields.filter fun e => !isTagKey e.1

variable {fields : Fields} {key : String}

lemma get?_withoutTag (fields : Fields) (key : String) :
    fields.withoutTag.get? key = if isTagKey key then none else fields.get? key := by
  rw [get?, withoutTag, lookup_filter (fun k => !isTagKey k)]
  cases isTagKey key <;> rfl

/-- What is declared under other keys stays. -/
lemma declared_withoutTag (h : isTagKey key = false) (h' : isTagKey ("$" ++ key) = false) :
    fields.withoutTag.declared key = fields.declared key := by
  have hget : fields.withoutTag.get? key = fields.get? key := by rw [get?_withoutTag, h]; rfl
  have hget' : fields.withoutTag.get? ("$" ++ key) = fields.get? ("$" ++ key) := by
    rw [get?_withoutTag, h']; rfl
  rw [declared, declared, has, has, getD, getD, getD, getD, hget, hget']

lemma declaresValue_withoutTag (fields : Fields) :
    fields.withoutTag.declaresValue = fields.declaresValue := by
  rw [declaresValue, declaresValue, has, has, has, has, get?_withoutTag, get?_withoutTag]
  rfl

end Fields

mutual
/-- The value with its tokens without their type tags. -/
def Json.untagged : Json → Json
  | .obj fields =>
    if Fields.declaresValue fields then .obj (Fields.withoutTag fields)
    else .obj (Fields.untagged fields)
  | v => v
/-- The entries with their tokens without their type tags. -/
def Fields.untagged : List (String × Json) → List (String × Json)
  | [] => []
  | (key, x) :: rest => (key, Json.untagged x) :: Fields.untagged rest
end

/-- The document without its type tags. -/
def Document.untagged (doc : Document) : Document := ⟨doc.label, Fields.untagged doc.fields⟩

lemma Fields.keys_untagged (fields : Fields) :
    (Fields.untagged fields).map Prod.fst = fields.map Prod.fst := by
  induction fields with
  | nil => rfl
  | cons e rest ih => simp [Fields.untagged, ih]

namespace Document

variable (label : String)

lemma ofNode_withoutTag (path : Path) (fields : Fields) :
    Token.ofNode label path (Fields.withoutTag fields)
      = (Token.ofNode label path fields).untagged := by
  have htype : (Fields.withoutTag fields).declared "type" = .null := by
    have hget : (Fields.withoutTag fields).get? "type" = none := Fields.get?_withoutTag fields _
    have hget' : (Fields.withoutTag fields).get? ("$" ++ "type") = none :=
      Fields.get?_withoutTag fields _
    rw [Fields.declared, Fields.has, Fields.getD, Fields.getD, hget, hget']
    rfl
  rw [Token.ofNode, Token.ofNode, Token.untagged, htype, Fields.declared_withoutTag rfl rfl,
    Fields.declared_withoutTag rfl rfl]

mutual
/-- The tokens at a key lose their type tags. -/
theorem tokensAt_untagged (path : Path) (key : String) : ∀ x : Json,
    tokensAt label path key x.untagged = (tokensAt label path key x).map Token.untagged
  | .obj fields => by
      rw [Json.untagged]
      split
      · next h =>
          have hwithout := (Fields.declaresValue_withoutTag fields).trans h
          rw [tokensAt, tokensAt, if_pos hwithout, if_pos h, ofNode_withoutTag]
          rfl
      · next h =>
          have huntagged : ¬ Fields.declaresValue (Fields.untagged fields) = true := by
            rwa [Place.declaresValue_congr (Fields.keys_untagged fields)]
          rw [tokensAt, tokensAt, if_neg huntagged, if_neg h, tokensIn_untagged _ fields]
          split <;> rfl
  | .null | .bool _ | .int _ | .float _ | .str _ | .arr _ => rfl
/-- The tokens in the entries of an object lose their type tags. -/
theorem tokensIn_untagged (path : Path) : ∀ fields : List (String × Json),
    tokensIn label path (Fields.untagged fields) = (tokensIn label path fields).map Token.untagged
  | [] => rfl
  | (key, x) :: rest => by
      rw [Fields.untagged, tokensIn, tokensIn, tokensAt_untagged path key x,
        tokensIn_untagged path rest, List.map_append]
end

/-- **A document without its type tags has the same tokens without theirs.** -/
theorem flatten_untagged (doc : Document) : doc.untagged.flatten = doc.flatten.map Token.untagged :=
  tokensIn_untagged doc.label [] doc.fields

end Document

namespace TokenTable

lemma put_untagged (t : Token) (table : TokenTable) :
    put t.untagged (table.map Token.untagged) = (put t table).map Token.untagged := by
  induction table with
  | nil => rfl
  | cons u rest ih =>
      rw [List.map_cons, put, put, ih]
      by_cases hpath : u.path = t.path
      · have hpath' : u.untagged.path = t.untagged.path := hpath
        rw [if_pos hpath, if_pos hpath', List.map_cons]
      · have hpath' : u.untagged.path ≠ t.untagged.path := hpath
        rw [if_neg hpath, if_neg hpath', List.map_cons]

lemma ofTokens_untagged (tokens : List Token) :
    ofTokens (tokens.map Token.untagged) = (ofTokens tokens).map Token.untagged := by
  have hfold : ∀ table : TokenTable,
      (tokens.map Token.untagged).foldl (fun table t => put t table) (table.map Token.untagged)
        = (tokens.foldl (fun table t => put t table) table).map Token.untagged := by
    induction tokens with
    | nil => exact fun _ => rfl
    | cons t tokens ih =>
        intro table
        rw [List.map_cons, List.foldl_cons, List.foldl_cons, put_untagged, ih]
  exact hfold []

lemma ofDocuments_untagged (docs : List Document) :
    ofDocuments (docs.map Document.untagged) = (ofDocuments docs).map Token.untagged := by
  have hflatten : (docs.map Document.untagged).flatMap Document.flatten
      = (docs.flatMap Document.flatten).map Token.untagged := by
    rw [List.flatMap_map, List.map_flatMap]
    exact List.flatMap_congr fun doc _ => doc.flatten_untagged
  rw [ofDocuments, ofDocuments, hflatten, ofTokens_untagged]

lemma get?_untagged (table : TokenTable) (path : Path) :
    get? (table.map Token.untagged) path = (table.get? path).map Token.untagged := by
  rw [get?, get?, List.find?_map]
  rfl

/-! ### Values -/

/-- **The value of a token does not depend on type tags.** -/
theorem evaluate_untagged (table : TokenTable) (fuel : Nat) (active : List Path) (token : Token) :
    evaluate (table.map Token.untagged) fuel active token.untagged
      = evaluate table fuel active token := by
  induction fuel generalizing active token with
  | zero => rfl
  | succ fuel ih =>
      have hlookUp : lookUp (table.map Token.untagged) fuel active token.untagged
          = lookUp table fuel active token := by
        funext name
        rw [lookUp, lookUp, get?_untagged]
        cases table.get? (Reference.target name) with
        | none => rfl
        | some t => exact ih _ t
      refine StateT.ext fun memo => ?_
      cases hknown : memo.values token.path with
      | some v =>
          have hknown' : memo.values token.untagged.path = some v := hknown
          rw [run_evaluate_known hknown, run_evaluate_known hknown']
      | none =>
          have hknown' : memo.values token.untagged.path = none := hknown
          by_cases hmem : token.path ∈ active
          · have hmem' : token.untagged.path ∈ active := hmem
            rw [run_evaluate_active hknown hmem, run_evaluate_active hknown' hmem']
            rfl
          · have hmem' : token.untagged.path ∉ active := hmem
            rw [run_evaluate_new hknown hmem, run_evaluate_new hknown' hmem', hlookUp]
            rfl

/-- Without type tags, no token fails for its own. -/
lemma evaluate_ne_compositeTag {table : TokenTable} {token : Token}
    (htoken : table.get? token.path = some token) (memo : Memo) (kind : CompositeKey) :
    (table.evaluate (table.length + 1) [] token).run memo ≠ .error (.compositeTag kind) := by
  rw [← evaluate_untagged]
  intro hrun
  have hget : get? (table.map Token.untagged) token.untagged.path = some token.untagged := by
    rw [get?_untagged]
    exact congrArg (Option.map Token.untagged) htoken
  have hkept : KeptByFinding (get? (table.map Token.untagged)) fun _ => True :=
    fun _ _ _ _ _ _ _ => trivial
  have hfuel : (table.map Token.untagged).length
      < ([] : List Path).length + (table.length + 1) := by
    simp
  have hkeeps := evaluate_keeps hkept hget (.nil _) hfuel memo ⟨trivial, by simp⟩
  rw [hrun] at hkeeps
  obtain ⟨p, t, ht, htag⟩ := hkeeps
  rw [get?_untagged] at ht
  obtain ⟨u, -, rfl⟩ := Option.map_eq_some_iff.mp ht
  cases htag

end TokenTable

/-! ### Tokens one after the other -/

/-- A list or an object for a type tag cannot be looked up. -/
lemma Token.hasKnownTag_of_composite {t : Token} {kind : CompositeKey}
    (h : t.tag.compositeKey? = some kind) : t.hasKnownTag = .error kind := by
  rw [hasKnownTag, Json.isNull_of_composite h, if_neg Bool.false_ne_true,
    Json.isOneOf_of_composite _ h]

/-- Any other type tag can. -/
lemma Token.exists_hasKnownTag_of_plain {t : Token} (h : t.tag.compositeKey? = none) :
    ∃ known, t.hasKnownTag = .ok known := by
  rw [hasKnownTag]
  split
  · exact ⟨true, rfl⟩
  · exact ⟨_, Json.isOneOf_of_plain _ h⟩

/-- The first type tag of the tokens that is a list or an object is of a kind and stands behind no
more than a number of tokens. -/
def StopsAtTag (kind : CompositeKey) (tokens : List Token) (n : Nat) : Prop :=
  ∃ before t after, tokens = before ++ t :: after ∧ (∀ u ∈ before, u.tag.compositeKey? = none) ∧
    t.tag.compositeKey? = some kind ∧ before.length ≤ n

section StopsAtTag

variable {kind kind' : CompositeKey} {t : Token} {rest : List Token}

lemma stopsAtTag_cons_of_composite (h : t.tag.compositeKey? = some kind) (n : Nat) :
    StopsAtTag kind' (t :: rest) n ↔ kind = kind' := by
  constructor
  · rintro ⟨before, u, after, hsplit, hbefore, hu, -⟩
    cases before with
    | nil =>
        obtain ⟨rfl, -⟩ := List.cons.inj hsplit
        exact Option.some.inj (h.symm.trans hu)
    | cons v before =>
        obtain ⟨rfl, -⟩ := List.cons.inj hsplit
        rw [hbefore t (by simp)] at h
        cases h
  · rintro rfl
    exact ⟨[], t, rest, rfl, by simp, h, Nat.zero_le n⟩

lemma not_stopsAtTag_zero (h : t.tag.compositeKey? = none) : ¬ StopsAtTag kind (t :: rest) 0 := by
  rintro ⟨before, u, after, hsplit, -, hu, hlength⟩
  obtain rfl := List.length_eq_zero_iff.mp (Nat.le_zero.mp hlength)
  obtain ⟨rfl, -⟩ := List.cons.inj hsplit
  rw [h] at hu
  cases hu

lemma stopsAtTag_cons_of_plain (h : t.tag.compositeKey? = none) (n : Nat) :
    StopsAtTag kind (t :: rest) (n + 1) ↔ StopsAtTag kind rest n := by
  constructor
  · rintro ⟨before, u, after, hsplit, hbefore, hu, hlength⟩
    cases before with
    | nil =>
        obtain ⟨rfl, -⟩ := List.cons.inj hsplit
        rw [h] at hu
        cases hu
    | cons v before =>
        obtain ⟨-, rfl⟩ := List.cons.inj hsplit
        exact ⟨before, u, after, rfl, fun w hw => hbefore w (by simp [hw]), hu,
          Nat.le_of_succ_le_succ hlength⟩
  · rintro ⟨before, u, after, rfl, hbefore, hu, hlength⟩
    exact ⟨t :: before, u, after, rfl, List.forall_mem_cons.mpr ⟨h, hbefore⟩, hu,
      Nat.succ_le_succ hlength⟩

end StopsAtTag

/-- Resolving tokens fails for a type tag exactly if the first one that is a list or an object is
reached, and otherwise the outcome is the other one but for the type tags. -/
structure Resolution.TellsTags (tokens : List Token) (r r' : Resolution) : Prop where
  composite_iff : ∀ kind, r.failure = some (.compositeTag kind) ↔
    StopsAtTag kind tokens r'.tokens.length
  agree : (∀ kind, r.failure ≠ some (.compositeTag kind)) →
    r.tokens.map Token.untagged = r'.tokens ∧ r.failure = r'.failure

/-- **Tokens are resolved one after the other as they are without type tags**, up to the first tag
that is a list or an object. -/
theorem TokenTable.resolveEach_untagged {table : TokenTable} {tokens : List Token}
    (htokens : ∀ t ∈ tokens, table.get? t.path = some t) (memo : Memo) :
    Resolution.TellsTags tokens (table.resolveEach tokens memo)
      (resolveEach (table.map Token.untagged) (tokens.map Token.untagged) memo) := by
  induction tokens generalizing memo with
  | nil =>
      refine ⟨fun kind => iff_of_false (by rintro ⟨⟩) ?_, fun _ => ⟨rfl, rfl⟩⟩
      rintro ⟨before, t, after, hsplit, -⟩
      exact absurd hsplit (by simp)
  | cons t rest ih =>
      have hlength : (table.map Token.untagged).length = table.length := List.length_map _
      have htag' : t.untagged.hasKnownTag = .ok true := rfl
      rw [List.map_cons, resolveEach, resolveEach, htag', hlength, evaluate_untagged]
      cases htag : t.tag.compositeKey? with
      | some kind =>
          -- nothing is evaluated any more
          rw [Token.hasKnownTag_of_composite htag]
          refine ⟨fun kind' => ?_, fun h => absurd rfl (h kind)⟩
          rw [stopsAtTag_cons_of_composite htag]
          simp
      | none =>
          obtain ⟨known, hknown⟩ := Token.exists_hasKnownTag_of_plain htag
          rw [hknown]
          cases hrun : (table.evaluate (table.length + 1) [] t).run memo with
          | error e =>
              have hcause : ∀ kind, e ≠ .compositeTag kind := by
                rintro kind rfl
                exact evaluate_ne_compositeTag (htokens t (by simp)) memo kind hrun
              exact ⟨fun kind => iff_of_false (by simpa using hcause kind)
                (not_stopsAtTag_zero htag), fun _ => ⟨rfl, rfl⟩⟩
          | ok p =>
              obtain ⟨v, memo'⟩ := p
              have hrest := ih (fun u hu => htokens u (by simp [hu])) memo'
              refine ⟨fun kind => ?_, fun h => ?_⟩
              · exact (hrest.composite_iff kind).trans (stopsAtTag_cons_of_plain htag _).symm
              · obtain ⟨htokens, hfailure⟩ := hrest.agree h
                exact ⟨congrArg (t.untagged.resolved v :: ·) htokens, hfailure⟩

/-! ### Documents -/

/-- The same for documents. -/
lemma resolution_untagged (docs : List Document) :
    Resolution.TellsTags (TokenTable.ofDocuments docs) (resolution docs)
      (resolution (docs.map Document.untagged)) := by
  have hmem : ∀ t ∈ TokenTable.ofDocuments docs,
      (TokenTable.ofDocuments docs).get? t.path = some t := by
    intro t ht
    rw [get?_table]
    exact mem_table_iff.mp ht
  rw [resolution, resolution, TokenTable.ofDocuments_untagged]
  exact TokenTable.resolveEach_untagged hmem []

lemma resolve_eq_error_iff {docs : List Document} {e : ResolveError} :
    resolve docs = .error e ↔ (resolution docs).failure = some e := by
  rw [resolve]
  cases (resolution docs).failure <;> simp

/-- Documents fail for a type tag exactly if the first one that is a list or an object is reached
when they are resolved without type tags. -/
lemma resolve_compositeTag_iff (docs : List Document) (kind : CompositeKey) :
    resolve docs = .error (.compositeTag kind) ↔ StopsAtTag kind (TokenTable.ofDocuments docs)
      (resolution (docs.map Document.untagged)).tokens.length := by
  rw [resolve_eq_error_iff]
  exact (resolution_untagged docs).composite_iff kind

/-- Otherwise they are resolved as they are without type tags. -/
lemma resolve_untagged {docs : List Document}
    (h : ∀ kind, resolve docs ≠ .error (.compositeTag kind)) :
    (resolve docs).map (fun c => c.tokens.map Token.untagged)
      = (resolve (docs.map Document.untagged)).map TokenList.tokens := by
  obtain ⟨htokens, hfailure⟩ := (resolution_untagged docs).agree fun kind hkind =>
    h kind (resolve_eq_error_iff.mpr hkind)
  rw [resolve, resolve, ← hfailure]
  cases (resolution docs).failure with
  | none => exact congrArg Except.ok htokens
  | some e => rfl

end StyleTokens
