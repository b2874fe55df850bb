import StyleTokens.Output.Format
import StyleTokens.Proofs.Basic
import StyleTokens.Token.Transform

/-!
With which errors computations fail.

* `FailsOnly`: if a computation fails, it does so with an error of a class; the class of a sequence of
  steps is that of the steps (`FailsOnly.bind`, `FailsOnly.mapM`, `FailsOnly.foldlM`,
  `FailsOnly.filterM`);
* `OutputError.isUnknownName`: errors of names that are looked up in vain;
* `Token.transform_findsNames`, `TokenList.filter_findsNames`, `OutputFormat.content_findsNames`:
  transforms, classes of tokens and formats that are found look up no further names.
-/

namespace StyleTokens

/-! ### Classes of errors -/

section FailsOnly

variable {ε ε' α β : Type} {P : ε → Prop} {x : Except ε α}

/-- If the computation fails, it does so with an error of the class. -/
def FailsOnly (P : ε → Prop) (x : Except ε α) : Prop := ∀ e, x = .error e → P e

lemma failsOnly_ok (a : α) : FailsOnly P (.ok a) := fun _ h => nomatch h

lemma failsOnly_error {e : ε} (h : P e) : FailsOnly P (.error e : Except ε α) := by
  rintro e' ⟨⟩
  exact h

/-- Errors that are seen differently are all in the class. -/
lemma failsOnly_mapError {Q : ε' → Prop} {f : ε → ε'} (h : ∀ e, Q (f e)) (x : Except ε α) :
    FailsOnly Q (x.mapError f) := by
  intro e' he
  obtain ⟨e, -, rfl⟩ := exists_of_mapError_eq_error he
  exact h e

namespace FailsOnly

lemma bind {f : α → Except ε β} (h : FailsOnly P x) (h' : ∀ a, FailsOnly P (f a)) :
    FailsOnly P (x >>= f) := by
  cases x with
  | ok a => exact h' a
  | error e => exact failsOnly_error (h e rfl)

lemma map {f : α → β} (h : FailsOnly P x) : FailsOnly P (x.map f) := by
  cases x with
  | ok a => exact failsOnly_ok _
  | error e => exact failsOnly_error (h e rfl)

lemma mapM {f : α → Except ε β} {xs : List α} (h : ∀ x ∈ xs, FailsOnly P (f x)) :
    FailsOnly P (xs.mapM f) := by
  induction xs with
  | nil => exact failsOnly_ok _
  | cons x xs ih =>
      rw [List.mapM_cons]
      refine (h x (by simp)).bind fun y => ?_
      exact (ih fun z hz => h z (by simp [hz])).bind fun ys => failsOnly_ok _

lemma foldlM {f : β → α → Except ε β} {xs : List α} (h : ∀ b, ∀ x ∈ xs, FailsOnly P (f b x))
    (b : β) : FailsOnly P (xs.foldlM f b) := by
  induction xs generalizing b with
  | nil => exact failsOnly_ok b
  | cons x xs ih =>
      rw [List.foldlM_cons]
      exact (h b x (by simp)).bind fun b' => ih (fun c y hy => h c y (by simp [hy])) b'

lemma filterM {p : α → Except ε Bool} (h : ∀ x, FailsOnly P (p x)) (xs : List α) :
    FailsOnly P (xs.filterM p) := by
  have hkept : ∀ acc, FailsOnly P (xs.filterAuxM p acc) := by
    induction xs with
    | nil => exact failsOnly_ok
    | cons x xs ih =>
        intro acc
        rw [List.filterAuxM]
        exact (h x).bind fun kept => ih _
  exact (hkept []).bind fun kept => failsOnly_ok _

end FailsOnly

end FailsOnly

/-! ### Names that are looked up in vain -/

/-- Is the error one of a name that is looked up in vain? -/
def OutputError.isUnknownName : OutputError → Bool
  | .unknownTransform _ => true
  | .unknownFilter _ => true
  | .unknownFormat _ => true
  | _ => false

/-- The computation does not fail because of a name. -/
abbrev FindsNames {α : Type} (x : Except OutputError α) : Prop :=
  FailsOnly (fun e => e.isUnknownName = false) x

lemma findsNames_color {α : Type} (x : Except ColorError α) :
    FindsNames (x.mapError OutputError.color) :=
  failsOnly_mapError (fun _ => by rfl) x

lemma findsNames_compositeTag {α : Type} (x : Except CompositeKey α) :
    FindsNames (x.mapError OutputError.compositeTag) :=
  failsOnly_mapError (fun _ => by rfl) x

/-! ### Transforms and classes of tokens -/

lemma TokenFilter.accepts_findsNames (f : TokenFilter) (t : Token) : FindsNames (f.accepts t) := by
  cases f with
  | color => exact failsOnly_ok _
  | dimension => exact findsNames_compositeTag _
  | fontSize => exact failsOnly_ok _
  | typography =>
      rw [accepts]
      split
      · exact failsOnly_ok _
      · exact findsNames_compositeTag _

lemma Transform.apply_findsNames (s : Transform) (options : Fields) (t : Token) :
    FindsNames (s.apply options t) := by
  have haccepts : FindsNames (s.accepts t) := by
    rw [accepts]
    split
    · exact failsOnly_ok _
    · exact TokenFilter.accepts_findsNames _ t
  have hvalue : FindsNames (s.newValue t.value) := by
    cases s with
    | argb => exact (findsNames_color _).bind fun c => failsOnly_ok _
    | rokuHex => exact (findsNames_color _).bind fun c => failsOnly_ok _
    | _ => exact failsOnly_ok _
  rw [apply.eq_def]
  refine haccepts.bind fun accepted => ?_
  cases accepted with
  | false => exact failsOnly_ok _
  | true =>
      rw [if_pos rfl]
      split
      · exact failsOnly_ok _
      · exact hvalue.bind fun v => failsOnly_ok _

/-- **Transforms that are found look up no names.** -/
theorem Token.transform_findsNames (steps : List Transform) (options : Fields) (t : Token) :
    FindsNames (t.transform steps options) :=
  FailsOnly.foldlM (fun u s _ => s.apply_findsNames options u) t

/-- A class that is found looks up no names. -/
lemma TokenList.filter_findsNames (c : TokenList) (f : TokenFilter) : FindsNames (c.filter f) :=
  (FailsOnly.filterM f.accepts_findsNames c.tokens).bind fun _ => failsOnly_ok _

/-! ### Formats -/

lemma NameTree.insert_findsNames (name : String) (before path : Path)
    (entries : List (String × NameTree)) : FindsNames (insert name before path entries) := by
  fun_induction insert name before path entries with
  | case1 => exact failsOnly_error rfl
  | case2 => exact failsOnly_error rfl
  | case3 => exact failsOnly_ok _
  | case4 => exact failsOnly_error rfl
  | case5 _ _ _ _ _ _ _ ih => exact ih.bind fun inner => failsOnly_ok _
  | case6 _ _ _ _ _ _ ih => exact ih.bind fun inner => failsOnly_ok _

lemma Output.javaScriptLine_findsNames (t : Token) : FindsNames (javaScriptLine t) := by
  rw [javaScriptLine]
  split
  · exact failsOnly_error rfl
  · exact failsOnly_ok _

lemma Output.swiftDeclaration_findsNames (t : Token) : FindsNames (swiftDeclaration t) := by
  rw [swiftDeclaration.eq_def]
  dsimp only
  split
  · exact (findsNames_color _).bind fun c => failsOnly_ok _
  · split <;> exact failsOnly_ok _

lemma Output.androidLine_findsNames (resourceType : Json) (t : Token) :
    FindsNames (androidLine resourceType t) := by
  have htag : FindsNames (androidTag resourceType t) := by
    rw [androidTag.eq_def]
    split
    · exact failsOnly_ok _
    · split
      · exact failsOnly_ok _
      · exact (findsNames_compositeTag _).bind fun numeric => failsOnly_ok _
  exact htag.bind fun tag => failsOnly_ok _

/-- **A format that is found looks up no names.** -/
theorem OutputFormat.content_findsNames (f : OutputFormat) (c : TokenList) (options : Fields)
    (now : Moment) : FindsNames (f.content c options now) := by
  have handroid : ∀ resourceType, FindsNames (Output.android resourceType c options now) :=
    fun resourceType =>
      (FailsOnly.mapM fun t _ => Output.androidLine_findsNames resourceType t).bind
        fun _ => failsOnly_ok _
  cases f with
  | javaScript =>
      exact (FailsOnly.mapM fun t _ => Output.javaScriptLine_findsNames t).bind
        fun _ => failsOnly_ok _
  | typeScript =>
      have hentries : FindsNames (NameTree.entriesOf c.tokens) :=
        FailsOnly.foldlM (fun entries t _ => NameTree.insert_findsNames _ _ _ entries) []
      exact (hentries.bind fun _ => failsOnly_ok _).bind fun _ => failsOnly_ok _
  | swift =>
      have henum : ∀ category members, FindsNames (Output.swiftEnum category members) :=
        fun category members =>
          (FailsOnly.mapM fun t _ => Output.swiftDeclaration_findsNames t).bind
            fun _ => failsOnly_ok _
      exact (FailsOnly.mapM fun e _ => henum e.1 e.2).bind fun _ => failsOnly_ok _
  | androidColors => exact handroid _
  | androidResources => exact handroid _
  | _ => exact failsOnly_ok _

end StyleTokens
