import StyleTokens.Proofs.Chain

/-!
Steps for names among steps for values.

* `Transform.valueSteps`: the steps of a chain that make no names;
* `Transform.accepts_of_transform`: what the steps before it have made of a token has no part in
  whether a step accepts it;
* `TokenList.renamed`: tokens with the names that a chain gives them;
* `TokenList.transform_eq_renamed`: a chain gives what its steps for values give, under the names of
  the last style;
* `TokenList.transform_separates`: names, values and failures of a chain, each told by its own steps.
  Steps for names can stand anywhere.
-/

namespace StyleTokens

namespace Transform

variable {steps : List Transform} {t u : Token}

/-! ### One token -/

/-- The steps of a chain that make no names, in order. -/
def valueSteps (steps : List Transform) : List Transform := steps.filter fun s => s.style?.isNone

/-- The name of the transform in a configuration leads back to it. -/
lemma ofTitle?_title (s : Transform) : ofTitle? s.title = some s := by
  cases s with
  | name style => cases style <;> rfl
  | _ => rfl

/-- A chain of registered names is one of transforms. -/
lemma chain_map_title (steps : List Transform) : chain (steps.map title) = .ok steps := by
  rw [chain, mapM_eq_ok_iff, List.forall₂_map_left_iff, List.forall₂_same]
  intro s _
  rw [ofTitle?_title]

/-- A step accepts a token as it accepts what the steps before it have made of the token. -/
lemma accepts_of_transform {options : Fields} (h : t.transform steps options = .ok u)
    (s : Transform) : s.accepts u = s.accepts t := by
  obtain ⟨hsource, -⟩ := Token.transform_spec h
  exact accepts_congr s (by rw [hsource]) (by rw [hsource])

/-- Steps for names leave the value alone. -/
lemma valueAfter_valueSteps (steps : List Transform) (t : Token) (v : Json) :
    valueAfter (valueSteps steps) t v = valueAfter steps t v := by
  induction steps generalizing v with
  | nil => rfl
  | cons s steps ih =>
      cases hstyle : s.style? with
      | none =>
          have hkept : valueSteps (s :: steps) = s :: valueSteps steps := by
            simp [valueSteps, hstyle]
          rw [hkept, valueAfter_cons s (valueSteps steps), valueAfter_cons s steps]
          exact bind_congr ih
      | some style =>
          have hleft : valueSteps (s :: steps) = valueSteps steps := by
            simp [valueSteps, hstyle]
          have hvalue : valueAfter [s] t v = .ok v := by
            cases s with
            | name => rfl
            | _ => cases hstyle
          rw [hleft, ih, valueAfter_cons s steps, hvalue, ok_bind]

lemma lastStyle?_valueSteps (steps : List Transform) : lastStyle? (valueSteps steps) = none := by
  have hnone : (valueSteps steps).filterMap style? = [] := by
    refine List.filterMap_eq_nil_iff.mpr fun s hs => ?_
    simpa using (List.mem_filter.mp hs).2
  rw [lastStyle?, hnone]
  rfl

end Transform

open Transform

/-- The token with the name that a chain gives it. -/
def Token.renamed (steps : List Transform) (options : Fields) (t : Token) : Token :=
  { t with name := finalName steps options t }

/-- A chain makes of a token what its steps for values make of it, under the name of the last style.
-/
lemma Token.transform_eq_renamed (steps : List Transform) (options : Fields) (t : Token) :
    t.transform steps options
      = (t.transform (valueSteps steps) options).map (Token.renamed steps options) := by
  have hname : finalName (valueSteps steps) options t = t.name := by
    rw [finalName, lastStyle?_valueSteps]
  rw [Token.transform_eq, Token.transform_eq, valueAfter_valueSteps, hname]
  cases valueAfter steps t t.value <;> rfl

namespace TokenList

/-! ### Lists of tokens -/

/-- The tokens with the names that a chain gives them. -/
def renamed (steps : List Transform) (options : Fields) (c : TokenList) : TokenList :=
  ⟨c.tokens.map (Token.renamed steps options)⟩

/-- The values of the tokens, in order. -/
def valueList (c : TokenList) : List Json := c.tokens.map Token.value

lemma valueList_renamed (steps : List Transform) (options : Fields) (c : TokenList) :
    (c.renamed steps options).valueList = c.valueList := by
  rw [valueList, renamed, List.map_map]
  rfl

/-- The tokens of a list are changed by the transforms that the titles of a chain name. -/
lemma transform_titles (c : TokenList) (steps : List Transform) (options : Fields) :
    c.transform (steps.map title) options
      = (c.tokens.mapM (Token.transform steps options)).map TokenList.mk := by
  rw [TokenList.transform, chain_map_title, ok_bind]
  cases c.tokens.mapM (Token.transform steps options) <;> rfl

/-- **A chain gives what its steps for values give, under the names of the last style.** -/
theorem transform_eq_renamed (c : TokenList) (steps : List Transform) (options : Fields) :
    c.transform (steps.map title) options
      = (c.transform ((valueSteps steps).map title) options).map (renamed steps options) := by
  have htokens : c.tokens.mapM (Token.transform steps options)
      = (c.tokens.mapM (Token.transform (valueSteps steps) options)).map
        (List.map (Token.renamed steps options)) := by
    rw [← mapM_map]
    exact congrArg (fun f => c.tokens.mapM f) (funext (Token.transform_eq_renamed steps options))
  rw [transform_titles, transform_titles, htokens]
  cases c.tokens.mapM (Token.transform (valueSteps steps) options) <;> rfl

/-- A chain gives as many tokens as there were, in their order, with new names and values. -/
lemma forall₂_of_transform {c c' : TokenList} {steps : List Transform} {options : Fields}
    (h : c.transform (steps.map title) options = .ok c') :
    List.Forall₂ (fun t t' =>
      t' = { t with name := finalName steps options t, value := t'.value }) c.tokens c'.tokens := by
  rw [transform_titles] at h
  obtain ⟨tokens, htokens, rfl⟩ := exists_of_map_eq_ok h
  refine (mapM_eq_ok_iff.mp htokens).imp fun t t' ht => ?_
  rw [Token.transform_eq] at ht
  obtain ⟨v, -, rfl⟩ := exists_of_map_eq_ok ht
  rfl

/-- Chains with the same steps for values and the same last style give the same tokens, or fail alike.
-/
lemma transform_congr {steps steps' : List Transform} (hvalues : valueSteps steps' = valueSteps steps)
    (hstyle : lastStyle? steps' = lastStyle? steps) (c : TokenList) (options : Fields) :
    c.transform (steps'.map title) options = c.transform (steps.map title) options := by
  have htoken : Token.renamed steps' options = Token.renamed steps options := by
    funext t
    rw [Token.renamed, Token.renamed, finalName, finalName, hstyle]
  have hrenamed : renamed steps' options = renamed steps options := by
    funext d
    rw [renamed, renamed, htoken]
  rw [transform_eq_renamed, transform_eq_renamed c steps, hvalues, hrenamed]

/-- **Names and values are told apart by a chain.** Each step decides whether to change a token as it
would for the token that the chain began with. The chain gives as many tokens as there were, in
their order; each is as it was but for its name, which is made by the last step that makes names, of
the path and the prefix of the options, and for its value. The values are those that the other steps
alone give, and where these fail, the chain fails in the same way. So the steps that make names can
stand anywhere in the chain, as long as the last of them makes the same names. -/
theorem transform_separates (c : TokenList) (steps : List Transform) (options : Fields) :
    (∀ before s after, steps = before ++ s :: after → ∀ t u,
      t.transform before options = .ok u → s.accepts u = s.accepts t) ∧
    (∀ c', c.transform (steps.map title) options = .ok c' →
      List.Forall₂ (fun t t' =>
        t' = { t with name := finalName steps options t, value := t'.value }) c.tokens c'.tokens) ∧
    (c.transform (steps.map title) options).map valueList
      = (c.transform ((valueSteps steps).map title) options).map valueList ∧
    ∀ steps', valueSteps steps' = valueSteps steps → lastStyle? steps' = lastStyle? steps →
      c.transform (steps'.map title) options = c.transform (steps.map title) options := by
  refine ⟨fun before s after _ t u h => accepts_of_transform h s, fun c' => forall₂_of_transform, ?_,
    fun steps' hvalues hstyle => transform_congr hvalues hstyle c options⟩
  rw [transform_eq_renamed]
  cases c.transform ((valueSteps steps).map title) options with
  | error e => rfl
  | ok d => exact congrArg Except.ok (valueList_renamed steps options d)

/-- A gap and an ink. -/
def gapAndInk : TokenList :=
  ⟨[{ path := ["gap", "wide"], value := .int 4, tag := .str "dimension", name := "gapWide" },
    { path := ["ink"], value := .str "#16b087", tag := .str "color", name := "ink" }]⟩

/-- The steps for names stand around those for colours and sizes, or the last of them between these:
each chain gives the gap its unit and the ink its alpha, under names with underscores. -/
theorem transform_separates_gapAndInk :
    ∃ c', gapAndInk.transform ["name/kebab", "color/argb", "size/px", "name/snake"] [] = .ok c' ∧
      gapAndInk.transform ["color/argb", "name/snake", "size/px"] [] = .ok c' ∧
      c'.tokens.map Token.name = ["gap_wide", "ink"] ∧
      c'.tokens.map Token.path = [["gap", "wide"], ["ink"]] ∧
      c'.valueList = [.str "4px", .str "#FF16B087"] := by
  obtain ⟨-, -, -, hmoved⟩ := transform_separates gapAndInk
    [.name .kebab, .argb, .px, .name .snake] []
  obtain ⟨c', hc', hnames, hpaths, hvalues⟩ : ∃ c',
      gapAndInk.transform ["name/kebab", "color/argb", "size/px", "name/snake"] [] = .ok c' ∧
      c'.tokens.map Token.name = ["gap_wide", "ink"] ∧
      c'.tokens.map Token.path = [["gap", "wide"], ["ink"]] ∧
      c'.valueList = [.str "4px", .str "#FF16B087"] := ⟨_, rfl, rfl, rfl, rfl⟩
  exact ⟨c', hc', (hmoved [.argb, .name .snake, .px] rfl rfl).trans hc', hnames, hpaths, hvalues⟩

end TokenList

end StyleTokens
