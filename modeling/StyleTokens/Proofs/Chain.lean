import StyleTokens.Proofs.Basic
import StyleTokens.Token.Transform

/-!
Chains of transforms, and the classes of tokens that are kept.

* `Transform.accepts_congr`: whether a transform changes a token is told by its path and its type
  tag;
* `Transform.finalName`, `Transform.valueAfter`: the name that a chain of transforms gives a token,
  by its last style, and the value that it makes of a value;
* `Transform.apply_eq`, `Token.transform_eq`: one step changes the name or the value of a token, and
  a chain changes them as `finalName` and `valueAfter` say;
* `valueAfter_congr`: tokens that the steps of a chain accept alike have their values changed alike;
* `TokenList.transform_spec`, `TokenList.selected_sublist`: the same for lists of tokens.
-/

namespace StyleTokens

/-! ### One step -/

namespace Transform

variable {s : Transform} {options : Fields} {t t' u : Token}

/-- The path and the type tag of a token tell whether a transform changes it. -/
lemma accepts_congr (s : Transform) (hpath : t.path = u.path) (htag : t.tag = u.tag) :
    s.accepts t = s.accepts u := by
  have hclass : ∀ f : TokenFilter, f.accepts t = f.accepts u := by
    intro f
    rw [TokenFilter.accepts.eq_def, TokenFilter.accepts.eq_def, Token.category, Token.category,
      hpath, htag]
  rw [accepts, accepts]
  cases s.filter? with
  | none => rfl
  | some f => exact hclass f

/-- The value that the steps of a chain make of a value, for a token that each of them accepts or
leaves alone. -/
def valueAfter (steps : List Transform) (t : Token) (v : Json) : Except OutputError Json :=
  steps.foldlM (fun v s => do if ← s.accepts t then s.newValue v else return v) v

/-- The value goes through the first step and then through the others. -/
lemma valueAfter_cons (s : Transform) (steps : List Transform) (t : Token) (v : Json) :
    valueAfter (s :: steps) t v = valueAfter [s] t v >>= valueAfter steps t := by
  rw [valueAfter, ← List.singleton_append, List.foldlM_append]
  rfl

/-- Tokens that every step accepts alike have their values changed alike. -/
lemma valueAfter_congr {steps : List Transform} (h : ∀ s ∈ steps, s.accepts t = s.accepts u)
    (v : Json) : valueAfter steps t v = valueAfter steps u v := by
  induction steps generalizing v with
  | nil => rfl
  | cons s steps ih =>
      have hrest : ∀ v, valueAfter steps t v = valueAfter steps u v :=
        ih fun r hr => h r (by simp [hr])
      rw [valueAfter, valueAfter, List.foldlM_cons, List.foldlM_cons, h s (by simp)]
      exact bind_congr hrest

/-- The style of the names that a transform makes; transforms of values make none. -/
def style? : Transform → Option NameStyle
  | .name style => some style
  | _ => none

/-- The style of the last names that the steps of a chain make. -/
def lastStyle? (steps : List Transform) : Option NameStyle := (steps.filterMap style?).getLast?

/-- The name of a token after a chain: the one in the last style, or the one that it had if no step
makes names. -/
def finalName (steps : List Transform) (options : Fields) (t : Token) : String :=
  match lastStyle? steps with
  | some style => newName style options t.path
  | none => t.name

/-- The steps behind the first one decide about the name, unless none of them makes names. -/
lemma finalName_cons (s : Transform) (steps : List Transform) (options : Fields) (t : Token)
    (v : Json) : finalName (s :: steps) options t
      = finalName steps options { t with name := finalName [s] options t, value := v } := by
  have hlast : lastStyle? (s :: steps) = (lastStyle? steps).or s.style? := by
    rw [lastStyle?, lastStyle?, List.filterMap_cons]
    cases s.style? with
    | none => rw [Option.or_none]
    | some style => rw [List.getLast?_cons, Option.or_some]
  rw [finalName, hlast, finalName, finalName]
  cases lastStyle? steps with
  | some style => rfl
  | none => cases s <;> rfl

/-- A transform of values changes the value alone, if it accepts the token. -/
lemma apply_of_style?_eq_none (h : s.style? = none) (options : Fields) (t : Token) :
    s.apply options t = (valueAfter [s] t t.value).map fun v => { t with value := v } := by
  rw [apply.eq_def, valueAfter]
  cases haccepts : s.accepts t with
  | error e => simp [haccepts, bind, Except.bind, Except.map]
  | ok accepted =>
      cases accepted with
      | false => simp [haccepts, bind, Except.bind, pure, Except.pure, Except.map]
      | true =>
          rw [ok_bind, if_pos rfl]
          split
          · exact absurd h (by simp [style?])
          · cases hv : s.newValue t.value <;>
              simp [haccepts, hv, bind, Except.bind, pure, Except.pure, Except.map]

/-- A transform changes the name and the value of a token alone. -/
lemma apply_eq (s : Transform) (options : Fields) (t : Token) :
    s.apply options t = (valueAfter [s] t t.value).map fun v =>
      { t with name := finalName [s] options t, value := v } := by
  cases hstyle : s.style? with
  | none =>
      have hname : finalName [s] options t = t.name := by
        simp [finalName, lastStyle?, hstyle]
      rw [apply_of_style?_eq_none hstyle, hname]
  | some style =>
      cases s with
      | name => rfl
      | _ => cases hstyle

end Transform

open Transform

/-! ### Chains -/

variable {options : Fields}

/-- **What a chain makes of a token**: each step decides by the token as it was whether to change the
value that the steps before it have made, and the last step that makes names gives the name. -/
theorem Token.transform_eq (steps : List Transform) (options : Fields) (t : Token) :
    t.transform steps options = (valueAfter steps t t.value).map fun v =>
      { t with name := finalName steps options t, value := v } := by
  induction steps generalizing t with
  | nil => rfl
  | cons s steps ih =>
      have hcons : t.transform (s :: steps) options
          = s.apply options t >>= Token.transform steps options := List.foldlM_cons
      rw [hcons, apply_eq, valueAfter_cons s steps]
      cases valueAfter [s] t t.value with
      | error e => rfl
      | ok v =>
          -- the token that the first step leaves has the path and the type tag of the token
          let u : Token := { t with name := finalName [s] options t, value := v }
          have hvalue : valueAfter steps u v = valueAfter steps t v :=
            valueAfter_congr (fun r _ => accepts_congr r rfl rfl) v
          calc Token.transform steps options u
              = (valueAfter steps u v).map fun w =>
                  { u with name := finalName steps options u, value := w } := ih u
            _ = (valueAfter steps t v).map fun w =>
                  { t with name := finalName (s :: steps) options t, value := w } := by
                rw [hvalue, finalName_cons s steps options t v]

/-- A chain changes the name and the value of a token alone. -/
lemma Token.transform_spec {steps : List Transform} {t t' : Token}
    (h : t.transform steps options = .ok t') :
    t' = { t with name := t'.name, value := t'.value } ∧
      valueAfter steps t t.value = .ok t'.value := by
  rw [Token.transform_eq] at h
  obtain ⟨v, hv, rfl⟩ := exists_of_map_eq_ok h
  exact ⟨rfl, hv⟩

namespace TokenList

variable {c c' : TokenList}

/-- A chain of transforms changes the tokens of a list one by one. -/
lemma transform_spec {titles : List String} (h : c.transform titles options = .ok c') :
    ∃ steps, Transform.chain titles = .ok steps ∧
      List.Forall₂ (fun t t' => t.transform steps options = .ok t') c.tokens c'.tokens := by
  rw [TokenList.transform] at h
  obtain ⟨steps, hsteps, h⟩ := exists_of_bind_eq_ok h
  obtain ⟨tokens, htokens, h⟩ := exists_of_bind_eq_ok h
  obtain rfl := Except.ok.inj h
  exact ⟨steps, hsteps, forall₂_of_mapM htokens⟩

/-- The tokens of a class are tokens of the list, in order. -/
lemma selected_sublist {name : Option String} (h : c.selected name = .ok c') :
    c'.tokens.Sublist c.tokens := by
  cases name with
  | none =>
      obtain rfl : c = c' := Except.ok.inj h
      exact .refl _
  | some name =>
      rw [selected] at h
      split at h
      · obtain rfl : c = c' := Except.ok.inj h
        exact .refl _
      · rw [filterNamed] at h
        split at h
        · rw [TokenList.filter] at h
          obtain ⟨tokens, htokens, h⟩ := exists_of_bind_eq_ok h
          obtain rfl := Except.ok.inj h
          exact filterM_sublist htokens
        · exact absurd h (by simp)

end TokenList

end StyleTokens
