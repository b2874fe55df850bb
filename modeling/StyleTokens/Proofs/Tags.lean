import StyleTokens.Proofs.Chain
import StyleTokens.Proofs.Failures
import StyleTokens.Proofs.Untagged

/-!
Type tags of every kind.

A type tag can be any value. Those that are neither a list nor an object are put up with everywhere;
lists and objects cannot be looked up in a set of names.

* `TokenFilter.looksUp`, `TokenFilter.accepts_eq_error_iff`: the classes of tokens that look up the
  type tag, and when they fail;
* `Transform.apply_compositeTag_iff`, `Token.transform_compositeTag_iff`: the transforms that fail
  for a type tag, alone and in a chain;
* `checkDeclarations_compositeTag_iff`, `unknownTag_mem_warnings`: when the check of a document ends
  at a type tag, and the warnings on tags without a meaning;
* `typeTags_tolerated_iff`: where type tags make anything fail. `listed_tag_not_tolerated` has a
  list that does.
-/

namespace StyleTokens

/-! ### Classes of tokens -/

/-- Does the class look up the type tag of the token? -/
def TokenFilter.looksUp : TokenFilter → Token → Bool
  | .dimension, _ => true
  | .typography, t => t.category != "typography"
  | .color, _ => false
  | .fontSize, _ => false

/-- The failure is one for a type tag. -/
def OutputError.IsCompositeTag (e : OutputError) : Prop := ∃ kind, e = .compositeTag kind

/-- Looking up a value fails exactly for lists and objects. -/
lemma lookUp_eq_error_iff {names : List String} {v : Json} {e : OutputError} :
    (v.isOneOf names).mapError OutputError.compositeTag = .error e ↔
      ∃ kind, v.compositeKey? = some kind ∧ e = .compositeTag kind := by
  cases hkey : v.compositeKey? with
  | some kind =>
      rw [Json.isOneOf_of_composite names hkey]
      simp [Except.mapError, eq_comm]
  | none =>
      rw [Json.isOneOf_of_plain names hkey]
      simp [Except.mapError]

/-- A class fails exactly at a list or an object that it looks up. -/
lemma TokenFilter.accepts_eq_error_iff (f : TokenFilter) (t : Token) (e : OutputError) :
    f.accepts t = .error e ↔
      f.looksUp t = true ∧ ∃ kind, t.tag.compositeKey? = some kind ∧ e = .compositeTag kind := by
  cases f with
  | color => simp [accepts, looksUp]
  | fontSize => simp [accepts, looksUp]
  | dimension => simp only [accepts, looksUp, lookUp_eq_error_iff, true_and]
  | typography =>
      rw [accepts, looksUp]
      by_cases hcategory : t.category = "typography"
      · simp [hcategory]
      · rw [if_neg hcategory, lookUp_eq_error_iff]
        simp [hcategory]

lemma TokenFilter.exists_accepts_eq_ok_iff (f : TokenFilter) (t : Token) :
    (∃ b, f.accepts t = .ok b) ↔ (f.looksUp t = true → t.tag.compositeKey? = none) := by
  have herror := f.accepts_eq_error_iff t
  cases haccepts : f.accepts t with
  | ok b =>
      refine iff_of_true ⟨b, rfl⟩ fun hlooks => ?_
      by_contra hne
      obtain ⟨kind, hkind⟩ := Option.ne_none_iff_exists'.mp hne
      have hfail := (herror _).mpr ⟨hlooks, kind, hkind, rfl⟩
      rw [haccepts] at hfail
      cases hfail
  | error e =>
      obtain ⟨hlooks, kind, hkind, -⟩ := (herror e).mp haccepts
      refine iff_of_false (by rintro ⟨_, ⟨⟩⟩) fun hplain => ?_
      rw [hplain hlooks] at hkind
      cases hkind

namespace TokenList

variable (c : TokenList) (f : TokenFilter)

/-- The tokens of a class are found exactly if no type tag that is looked up is a list or an object.
-/
lemma exists_filter_eq_ok_iff : (∃ c', c.filter f = .ok c') ↔
    ∀ t ∈ c.tokens, f.looksUp t = true → t.tag.compositeKey? = none := by
  have hfilter : (∃ c', c.filter f = .ok c') ↔ ∃ ts, c.tokens.filterM f.accepts = .ok ts := by
    rw [TokenList.filter]
    cases c.tokens.filterM f.accepts with
    | ok ts => exact iff_of_true ⟨_, rfl⟩ ⟨_, rfl⟩
    | error e => exact iff_of_false (by rintro ⟨_, ⟨⟩⟩) (by rintro ⟨_, ⟨⟩⟩)
  rw [hfilter, exists_filterM_eq_ok_iff]
  exact forall₂_congr fun t _ => f.exists_accepts_eq_ok_iff t

/-- There is no other failure. -/
lemma isCompositeTag_of_filter : FailsOnly OutputError.IsCompositeTag (c.filter f) := by
  have haccepts : ∀ t, FailsOnly OutputError.IsCompositeTag (f.accepts t) := by
    intro t e he
    obtain ⟨-, kind, -, rfl⟩ := (f.accepts_eq_error_iff t e).mp he
    exact ⟨kind, rfl⟩
  exact (FailsOnly.filterM haccepts c.tokens).bind fun ts => failsOnly_ok _

end TokenList

/-! ### Transforms -/

namespace Transform

variable {s : Transform} {options : Fields} {t : Token} {kind : CompositeKey}

/-- A transform of values does not fail for a type tag. -/
lemma newValue_ne_compositeTag (s : Transform) (v : Json) :
    s.newValue v ≠ .error (.compositeTag kind) := by
  have hread : ∀ g : Color → String,
      ((Color.read v).mapError OutputError.color >>= fun c => pure (Json.str (g c)))
        ≠ .error (.compositeTag kind) := by
    intro g
    cases Color.read v <;> rintro ⟨⟩
  cases s with
  | argb => exact hread fun c => "#" ++ c.argbHex
  | rokuHex => exact hread fun c => "\"0x" ++ c.rgbaHex ++ "\""
  | _ => rintro ⟨⟩

/-- A transform fails for a type tag exactly if it is one of sizes and the tag is a list or an
object. -/
lemma apply_compositeTag_iff : s.apply options t = .error (.compositeTag kind) ↔
    t.tag.compositeKey? = some kind ∧ s.filter? = some .dimension := by
  have haccepts : s.accepts t = .error (.compositeTag kind) ↔
      t.tag.compositeKey? = some kind ∧ s.filter? = some .dimension := by
    rw [accepts.eq_def]
    cases s <;> simp [filter?, TokenFilter.accepts_eq_error_iff, TokenFilter.looksUp]
  rw [apply.eq_def, bind_eq_error_iff, haccepts]
  refine or_iff_left ?_
  rintro ⟨accepted, -, h⟩
  cases accepted with
  | false => cases h
  | true =>
      rw [if_pos rfl] at h
      split at h
      · cases h
      · rcases bind_eq_error_iff.mp h with h | ⟨v, -, h⟩
        · exact newValue_ne_compositeTag s _ h
        · cases h

/-- The other transforms do not fail at all where the type tag is a list or an object, since it is
no colour then. -/
lemma exists_apply_eq_ok (hkind : t.tag.compositeKey? = some kind)
    (hclass : s.filter? ≠ some .dimension) : ∃ t', s.apply options t = .ok t' := by
  have htext : t.tag.isText "color" = false := Json.isText_of_composite hkind _
  have hleft : s.accepts t = .ok false → ∃ t', s.apply options t = .ok t' := by
    intro haccepts
    refine ⟨t, ?_⟩
    rw [apply.eq_def, haccepts, ok_bind]
    rfl
  cases s with
  | name style => exact ⟨_, rfl⟩
  | argb => exact hleft (congrArg Except.ok htext)
  | rokuHex => exact hleft (congrArg Except.ok htext)
  | sp =>
      rw [apply.eq_def]
      have haccepts : accepts .sp t = .ok (TokenFilter.namesFontSize t.path) := rfl
      rw [haccepts, ok_bind]
      split <;> exact ⟨_, rfl⟩
  | _ => exact absurd rfl hclass

end Transform

/-- **A chain of transforms fails for a type tag exactly if it has one of sizes and the tag is a
list or an object.** -/
theorem Token.transform_compositeTag_iff {steps : List Transform} {options : Fields} {t : Token}
    {kind : CompositeKey} : t.transform steps options = .error (.compositeTag kind) ↔
      t.tag.compositeKey? = some kind ∧ ∃ s ∈ steps, s.filter? = some .dimension := by
  induction steps generalizing t with
  | nil => simp [Token.transform, pure, Except.pure]
  | cons s steps ih =>
      have hcons : t.transform (s :: steps) options
          = s.apply options t >>= fun t' => t'.transform steps options := List.foldlM_cons
      -- a step leaves the type tag as it is
      have htag : ∀ t', s.apply options t = .ok t' → t'.tag = t.tag := by
        intro t' h
        rw [Transform.apply_eq] at h
        obtain ⟨v, -, rfl⟩ := exists_of_map_eq_ok h
        rfl
      rw [hcons, bind_eq_error_iff, Transform.apply_compositeTag_iff]
      constructor
      · rintro (⟨hkind, hs⟩ | ⟨t', ht', h⟩)
        · exact ⟨hkind, s, by simp, hs⟩
        · obtain ⟨hkind, r, hr, hclass⟩ := ih.mp h
          exact ⟨htag t' ht' ▸ hkind, r, by simp [hr], hclass⟩
      · rintro ⟨hkind, r, hr, hclass⟩
        by_cases hs : s.filter? = some .dimension
        · exact .inl ⟨hkind, hs⟩
        · obtain ⟨t', ht'⟩ := Transform.exists_apply_eq_ok hkind hs
          have hne : r ≠ s := fun he => hs (he ▸ hclass)
          have hr : r ∈ steps := (List.mem_cons.mp hr).resolve_left hne
          exact .inr ⟨t', ht', ih.mpr ⟨htag t' ht' ▸ hkind, r, hr, hclass⟩⟩

/-! ### The check of a document -/

namespace TokenEntry

variable {file : String} {r : TokenEntry} {kind : CompositeKey}

lemma checkColor_ne_compositeTag (location : String) (v : Json) :
    checkColor location v ≠ .error (.compositeTag kind) := by
  rw [checkColor]
  split
  · rintro ⟨⟩
  · split <;> rintro ⟨⟩

/-- The check of a token ends at the type tag exactly if there is a value and the tag is a list or
an object. -/
lemma findings_compositeTag_iff : r.findings file = .error (.compositeTag kind) ↔
    r.value.isNull = false ∧ r.tag.compositeKey? = some kind := by
  refine ⟨fun h => ?_, fun ⟨hvalue, hkind⟩ => findings_composite hvalue hkind⟩
  by_cases hmissing : r.value.isNull = true ∨ r.tag.isNull = true
  · obtain ⟨f, hf⟩ := exists_findings_of_missing hmissing
    rw [hf] at h
    cases h
  · obtain ⟨hvalue, htag⟩ := not_or.mp hmissing
    have hvalue := Bool.eq_false_iff.mpr hvalue
    refine ⟨hvalue, ?_⟩
    cases hkind : r.tag.compositeKey? with
    | some kind' =>
        rw [findings_composite hvalue hkind] at h
        cases h
        rfl
    | none =>
        rw [findings_plain hvalue (Bool.eq_false_iff.mpr htag) hkind] at h
        split at h
        · cases hcolor : checkColor (r.location file) r.value with
          | ok f => rw [hcolor] at h; cases h
          | error e =>
              rw [hcolor] at h
              cases h
              exact absurd hcolor (checkColor_ne_compositeTag _ _)
        · cases h

/-- A type tag without a meaning is the cause of a warning. -/
lemma unknownTag_mem_of_findings {f : Findings} (h : r.findings file = .ok f)
    (hvalue : r.value.isNull = false) (htag : r.tag.isNull = false)
    (hunknown : ¬ r.tag.IsAmong knownTags) : r.unknownTag file ∈ f.warnings := by
  cases hkind : r.tag.compositeKey? with
  | some kind =>
      rw [findings_composite hvalue hkind] at h
      cases h
  | none =>
      rw [findings_plain hvalue htag hkind] at h
      obtain ⟨g, -, rfl⟩ := exists_of_map_eq_ok h
      simp [Findings.append, Findings.warnIf, hunknown]

end TokenEntry

section Check

variable {file : String} {fields : Fields}

/-- The check of a document ends at the first type tag of a token with a value that is a list or an
object, unless it ends at a colour before. -/
lemma checkDeclarations_compositeTag_iff {kind : CompositeKey} :
    checkDeclarations file fields = .error (.compositeTag kind) ↔
      ∃ before r after, TokenEntry.visitIn "" fields = before ++ r :: after ∧
        (∀ s ∈ before, ∃ f, TokenEntry.findings file s = .ok f) ∧
        r.value.isNull = false ∧ r.tag.compositeKey? = some kind := by
  rw [checkDeclarations_eq_error_iff]
  simp only [TokenEntry.findings_compositeTag_iff]

/-- The findings of a document have a warning for every type tag without a meaning. -/
lemma unknownTag_mem_warnings {f : Findings} (h : checkDeclarations file fields = .ok f)
    {r : TokenEntry} (hr : r ∈ TokenEntry.visitIn "" fields) (hvalue : r.value.isNull = false)
    (htag : r.tag.isNull = false) (hunknown : ¬ r.tag.IsAmong knownTags) :
    r.unknownTag file ∈ f.warnings := by
  obtain ⟨g, hfindings, -, hwarnings⟩ := exists_findings_of_mem h hr
  exact hwarnings (TokenEntry.unknownTag_mem_of_findings hfindings hvalue htag hunknown)

end Check

/-! ### All of them -/

/-- **Where type tags make anything fail.** Only lists and objects do, and all others are put up
with.
* Documents fail for a type tag exactly if one is a list or an object and nothing before it makes
  the documents without type tags fail; if they do not fail for one, they are resolved as they are
  without them.
* The tokens of a class are found exactly if no type tag that the class looks up is a list or an
  object, and fail in no other way.
* A chain of transforms fails for a type tag exactly if there is a transform of sizes in it and the
  tag is a list or an object.
* The check of a document ends at a type tag exactly if it is a list or an object of a token with a
  value and the tokens before it have been checked; and if it does not end, there is a warning for
  every type tag that is not one of the known names. -/
theorem typeTags_tolerated_iff (docs : List Document) (c : TokenList) (f : TokenFilter) (t : Token)
    (steps : List Transform) (options : Fields) (file : String) (fields : Fields) :
    ((∀ kind, resolve docs = .error (.compositeTag kind) ↔
        StopsAtTag kind (TokenTable.ofDocuments docs)
          (resolution (docs.map Document.untagged)).tokens.length) ∧
      ((∀ kind, resolve docs ≠ .error (.compositeTag kind)) →
        (resolve docs).map (fun c => c.tokens.map Token.untagged)
          = (resolve (docs.map Document.untagged)).map TokenList.tokens)) ∧
    (((∃ c', c.filter f = .ok c') ↔
        ∀ t ∈ c.tokens, f.looksUp t = true → t.tag.compositeKey? = none) ∧
      ∀ e, c.filter f = .error e → e.IsCompositeTag) ∧
    (∀ kind, t.transform steps options = .error (.compositeTag kind) ↔
      t.tag.compositeKey? = some kind ∧ ∃ s ∈ steps, s.filter? = some .dimension) ∧
    (∀ kind, checkDeclarations file fields = .error (.compositeTag kind) ↔
      ∃ before r after, TokenEntry.visitIn "" fields = before ++ r :: after ∧
        (∀ s ∈ before, ∃ found, TokenEntry.findings file s = .ok found) ∧
        r.value.isNull = false ∧ r.tag.compositeKey? = some kind) ∧
    ∀ found, checkDeclarations file fields = .ok found →
      ∀ r ∈ TokenEntry.visitIn "" fields, r.value.isNull = false → r.tag.isNull = false →
        ¬ r.tag.IsAmong knownTags → r.unknownTag file ∈ found.warnings :=
  ⟨⟨resolve_compositeTag_iff docs, resolve_untagged⟩,
    ⟨c.exists_filter_eq_ok_iff f, c.isCompositeTag_of_filter f⟩,
    fun _ => Token.transform_compositeTag_iff, fun _ => checkDeclarations_compositeTag_iff,
    fun _ h _ hr => unknownTag_mem_warnings h hr⟩

/-- A gap with a type tag. -/
def taggedGap (tag : Json) : Document :=
  ⟨"gaps.json", [("gap", .obj [("value", .int 4), ("type", tag)])]⟩

/-- A number for a type tag is put up with. -/
example : checkDeclarations "gaps.json" (taggedGap (.int 3)).fields
    = .ok ⟨[], ["gaps.json: Token \"gap\" has unknown type \"3\""]⟩ := by decide

/-- A list for a type tag makes resolving, the class of sizes, a transform of sizes and the check
fail, whatever is in it. -/
theorem listed_tag_not_tolerated :
    resolve [taggedGap (.arr [.str "dimension"])] = .error (.compositeTag .list) ∧
    (TokenList.mk (taggedGap (.arr [.str "dimension"])).flatten).filter .dimension
      = .error (.compositeTag .list) ∧
    (Token.transform [.px] [] { path := ["gap"], value := .int 4, tag := .arr [.str "dimension"] })
      = .error (.compositeTag .list) ∧
    checkDeclarations "gaps.json" (taggedGap (.arr [.str "dimension"])).fields
      = .error (.compositeTag .list) :=
  ⟨rfl, rfl, rfl, rfl⟩

end StyleTokens
