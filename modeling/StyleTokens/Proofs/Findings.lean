import StyleTokens.Check.Value
import StyleTokens.Proofs.PlanGrammar

/-!
The findings on the tokens of a document.

* `Json.isOneOf_of_composite`, `Json.isOneOf_of_plain`: looking up a value in a list of names;
* `TokenEntry.findings`: the findings on a token, which depend on its path, its value and its type
  tag;
* `TokenEntry.findings_composite`, `TokenEntry.findings_plain`: those on a token with a value, where
  the type tag is a list or an object and where it is not;
* `checkDeclarations_eq`: the findings of a document are those on its tokens, in document order;
  `checkDeclarations_eq_error_iff`, `exists_findings_of_mem`: where its check ends, and what is found
  if it does not.
-/

namespace StyleTokens

/-! ### Looking up a value among names -/

namespace Json

variable {v : Json} {kind : CompositeKey} (names : List String)

/-- Being one of the names can be decided. -/
instance : (v : Json) → Decidable (v.IsAmong names)
  | .str s => decidable_of_iff (s ∈ names) (by simp [IsAmong])
  | .null | .bool _ | .int _ | .float _ | .arr _ | .obj _ => .isFalse (by simp [IsAmong])

/-- Lists and objects cannot be looked up. -/
lemma isOneOf_of_composite (h : v.compositeKey? = some kind) : v.isOneOf names = .error kind := by
  cases v <;> cases h <;> rfl

/-- Other values can, and strings alone are found. -/
lemma isOneOf_of_plain (h : v.compositeKey? = none) :
    v.isOneOf names = .ok (decide (v.IsAmong names)) := by
  cases v with
  | arr items => cases h
  | obj fields => cases h
  | str s => simp [isOneOf, IsAmong]
  | _ => simp [isOneOf, IsAmong]

/-- A list or an object is not null. -/
lemma isNull_of_composite (h : v.compositeKey? = some kind) : v.isNull = false := by
  cases v <;> cases h <;> rfl

/-- The given string is the only value that is it. -/
lemma isText_iff {s : String} : v.isText s = true ↔ v = .str s := by
  cases v with
  | str t => simp [isText]
  | _ => simp [isText]

/-- A list or an object is no string. -/
lemma isText_of_composite (h : v.compositeKey? = some kind) (s : String) :
    v.isText s = false := by
  cases v <;> cases h <;> rfl

end Json

/-! ### Findings on a token -/

namespace Findings

/-- All findings of a list of them. -/
def all (fs : List Findings) : Findings := fs.foldr append {}

@[simp] lemma empty_append (f : Findings) : append {} f = f := rfl

@[simp] lemma append_empty (f : Findings) : f.append {} = f := by
  simp [append]

@[simp] lemma warnIf_false (s : String) : warnIf false s = {} := rfl

lemma append_assoc (f g h : Findings) : (f.append g).append h = f.append (g.append h) := by
  simp [append]

lemma all_append (fs gs : List Findings) : all (fs ++ gs) = (all fs).append (all gs) := by
  induction fs with
  | nil => rfl
  | cons f fs ih =>
      have hcons : ∀ f fs, all (f :: fs) = f.append (all fs) := fun _ _ => rfl
      rw [List.cons_append, hcons, hcons, ih, append_assoc]

/-- The findings of one are among all of them. -/
lemma subset_all {f : Findings} {fs : List Findings} (h : f ∈ fs) :
    f.errors ⊆ (all fs).errors ∧ f.warnings ⊆ (all fs).warnings := by
  induction fs with
  | nil => cases h
  | cons g fs ih =>
      rcases List.mem_cons.mp h with rfl | h
      · exact ⟨List.subset_append_left _ _, List.subset_append_left _ _⟩
      · exact ⟨List.subset_append_of_subset_right _ (ih h).1,
          List.subset_append_of_subset_right _ (ih h).2⟩

end Findings

namespace TokenEntry

variable {file : String} {r : TokenEntry}

/-- The findings on a token, as on an object that declares its value and its type tag. -/
def findings (file : String) (r : TokenEntry) : Except CheckFailure Findings :=
  checkToken file r.path [("value", r.value), ("type", r.tag)]

/-- What messages on a token begin with. -/
def location (file : String) (r : TokenEntry) : String := file ++ ": Token \"" ++ r.path ++ "\""

/-- The warning on a type tag without a meaning. -/
def unknownTag (file : String) (r : TokenEntry) : String :=
  r.location file ++ " has unknown type \"" ++ r.tag.plain ++ "\""

/-- The warning on a size that is no number. -/
def nonNumeric (file : String) (r : TokenEntry) : String :=
  r.location file ++ " has non-numeric value \"" ++ r.value.plain ++ "\" with type \"" ++
    r.tag.plain ++ "\""

/-- The findings on a token in steps: a value, a type tag, and what they are like. -/
lemma findings_eq (file : String) (r : TokenEntry) : r.findings file =
    if r.value.isNull then .ok (.error (r.location file ++ " is missing \"value\" property"))
    else if r.tag.isNull then .ok (.error (r.location file ++ " is missing \"type\" property"))
    else (r.tag.isOneOf knownTags).mapError .compositeTag >>= fun known =>
      (if r.tag.isText "color" then checkColor (r.location file) r.value else .ok {}) >>=
        fun colorFindings =>
      (r.tag.isOneOf numericTags).mapError .compositeTag >>= fun numeric =>
      .ok ((Findings.warnIf (!known) (r.unknownTag file)).append (colorFindings.append
        (Findings.warnIf (numeric && !r.value.isNumber && !beginsReference r.value)
          (r.nonNumeric file)))) := by
  have hvalue : Fields.declared [("value", r.value), ("type", r.tag)] "value" = r.value := rfl
  have htag : Fields.declared [("value", r.value), ("type", r.tag)] "type" = r.tag := rfl
  rw [findings, checkToken, hvalue, htag]
  cases r.tag.isText "color" <;> rfl

/-- Tokens without a value or a type tag are errors. -/
lemma exists_findings_of_missing (h : r.value.isNull = true ∨ r.tag.isNull = true) :
    ∃ f, r.findings file = .ok f := by
  rw [findings_eq]
  split
  · exact ⟨_, rfl⟩
  · next hvalue =>
      rw [if_pos (h.resolve_left hvalue)]
      exact ⟨_, rfl⟩

/-- The check ends at a list or an object for a type tag. -/
lemma findings_composite {kind : CompositeKey} (hvalue : r.value.isNull = false)
    (h : r.tag.compositeKey? = some kind) : r.findings file = .error (.compositeTag kind) := by
  rw [findings_eq, hvalue, Json.isNull_of_composite h, Json.isOneOf_of_composite knownTags h]
  rfl

/-- Any other type tag is one of the known names or the cause of a warning. -/
lemma findings_plain (hvalue : r.value.isNull = false) (htag : r.tag.isNull = false)
    (h : r.tag.compositeKey? = none) : r.findings file
      = (if r.tag.isText "color" then checkColor (r.location file) r.value else .ok {}).map
        fun f => (Findings.warnIf (!decide (r.tag.IsAmong knownTags)) (r.unknownTag file)).append
          (f.append (Findings.warnIf (decide (r.tag.IsAmong numericTags) && !r.value.isNumber &&
            !beginsReference r.value) (r.nonNumeric file))) := by
  rw [findings_eq, hvalue, htag, Json.isOneOf_of_plain knownTags h,
    Json.isOneOf_of_plain numericTags h]
  cases if r.tag.isText "color" then checkColor (r.location file) r.value else .ok {} <;> rfl

end TokenEntry

/-! ### Findings of a document -/

/-- The findings on a token of a document depend on its path, its value and its type tag. -/
lemma checkToken_eq (file path : String) (fields : Fields) : checkToken file path fields
    = TokenEntry.findings file ⟨path, fields.declared "value", fields.declared "type"⟩ := rfl

section Walk

variable (file : String)

/-- The findings on the tokens of a list, in order. -/
def TokenEntry.findingsOf (entries : List TokenEntry) : Except CheckFailure Findings :=
  (entries.mapM (TokenEntry.findings file)).map Findings.all

lemma TokenEntry.findingsOf_append (entries entries' : List TokenEntry) :
    findingsOf file (entries ++ entries')
      = findingsOf file entries >>= fun f => findingsOf file entries' >>= fun g =>
        .ok (f.append g) := by
  rw [findingsOf, findingsOf, findingsOf, List.mapM_append]
  cases entries.mapM (TokenEntry.findings file) with
  | error e => rfl
  | ok fs => cases entries'.mapM (TokenEntry.findings file) with
    | error e => rfl
    | ok gs => exact congrArg Except.ok (Findings.all_append fs gs)

mutual
/-- The findings at a key are those on the tokens there. -/
theorem checkAt_eq (path key : String) : ∀ x : Json,
    checkAt file path key x = TokenEntry.findingsOf file (TokenEntry.visitAt path key x)
  | .obj fields => by
      rw [checkAt, TokenEntry.visitAt]
      split
      · rw [checkToken_eq, TokenEntry.findingsOf, List.mapM_cons, List.mapM_nil]
        cases TokenEntry.findings file _ with
        | error e => rfl
        | ok f => exact congrArg Except.ok (Findings.append_empty f).symm
      · exact checkIn_eq _ fields
  | .null | .bool _ | .int _ | .float _ | .str _ | .arr _ => rfl
/-- The findings in the entries of an object are those on the tokens there. -/
theorem checkIn_eq (path : String) : ∀ fields : List (String × Json),
    checkIn file path fields = TokenEntry.findingsOf file (TokenEntry.visitIn path fields)
  | [] => rfl
  | (key, x) :: rest => by
      rw [checkIn, TokenEntry.visitIn, TokenEntry.findingsOf_append, checkAt_eq path key x,
        checkIn_eq path rest]
      rfl
end

/-- **The findings of a document are those on its tokens**, in document order, up to the first one
whose check ends. -/
theorem checkDeclarations_eq (fields : Fields) : checkDeclarations file fields
    = TokenEntry.findingsOf file (TokenEntry.visitIn "" fields) :=
  checkIn_eq file "" fields

variable {file} {fields : Fields}

/-- The check of a document ends at the first token whose check ends. -/
lemma checkDeclarations_eq_error_iff {e : CheckFailure} :
    checkDeclarations file fields = .error e ↔
      ∃ before r after, TokenEntry.visitIn "" fields = before ++ r :: after ∧
        (∀ s ∈ before, ∃ f, TokenEntry.findings file s = .ok f) ∧
        TokenEntry.findings file r = .error e := by
  have hmap : ∀ x : Except CheckFailure (List Findings),
      x.map Findings.all = .error e ↔ x = .error e := by
    intro x
    cases x <;> simp [Except.map]
  rw [checkDeclarations_eq, TokenEntry.findingsOf, hmap, mapM_eq_error_iff]

/-- If it does not end, what is found on a token is among the findings of the document. -/
lemma exists_findings_of_mem {found : Findings} (h : checkDeclarations file fields = .ok found)
    {r : TokenEntry} (hr : r ∈ TokenEntry.visitIn "" fields) :
    ∃ f, r.findings file = .ok f ∧ f.errors ⊆ found.errors ∧ f.warnings ⊆ found.warnings := by
  rw [checkDeclarations_eq] at h
  obtain ⟨fs, hfs, rfl⟩ := exists_of_map_eq_ok h
  obtain ⟨f, hf, hfindings⟩ := exists_of_mem_forall₂ (forall₂_of_mapM hfs).flip hr
  exact ⟨f, hfindings, Findings.subset_all hf⟩

end Walk

end StyleTokens
