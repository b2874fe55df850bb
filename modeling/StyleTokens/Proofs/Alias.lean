import StyleTokens.Output.StyleSheet
import StyleTokens.Proofs.Chain
import StyleTokens.Proofs.Solution

/-!
Aliases in style sheets.

* `CssValue`, `declarations`, `sheet`: what a style sheet declares, and the sheet as text;
* `css_eq_sheet`: the written style sheet is the text of its declarations;
* `expandOnce`, `IsPlain`: every alias replaced by what is declared for its name, and declarations
  without aliases;
* `LeadsTo`: the number of aliases from a token to one that is none;
* `isPlain_iterate`, `iterate_eq_iff`: if no aliases lead on for ever, replacing them ends, and gives
  the declarations without aliases exactly if an alias and its target are the same text;
* `aliasesAgree_of_accepts`: they are, where every transform accepts an alias and its target alike;
* `css_aliases_expand`: this is so for the tokens of documents after any chain of transforms.
  `aliased_size_keeps_unit` has a target that a transform leaves alone.
-/

namespace StyleTokens.Output

/-! ### Declarations -/

/-- The value of a property: an alias of another property, or text. -/
inductive CssValue where
  | alias (name : String)
  | text (s : String)
  deriving DecidableEq, Repr

/-- The value as it is written. -/
def CssValue.written : CssValue → String
  | .alias name => "var(--" ++ name ++ ")"
  | .text s => s

/-- The properties of a style sheet and their values, in order. -/
abbrev Declarations := List (String × CssValue)

/-- The value that is declared for a token. -/
def declared (aliases : Bool) (c : TokenList) (t : Token) : CssValue :=
  match if aliases then aliased? c t else none with
  | some target => .alias target.name
  | none => .text t.value.bareText

/-- The properties of tokens with the given values. -/
def declaring (c : TokenList) (f : Token → CssValue) : Declarations :=
  c.tokens.map fun t => (t.name, f t)

/-- What the style sheet of a list of tokens declares. -/
def declarations (aliases : Bool) (c : TokenList) : Declarations := declaring c (declared aliases c)

/-- A style sheet as text. -/
def sheet (options : Fields) (now : Moment) (ds : Declarations) : String :=
  joinLines ([header .block "CSS" options now, "", cssSelector options ++ " \x7b"] ++
    ds.map (fun d => "  --" ++ d.1 ++ ": " ++ d.2.written ++ ";") ++ ["\x7d"]) ++ "\n"

lemma written_declared (aliases : Bool) (c : TokenList) (t : Token) :
    (declared aliases c t).written = cssValue aliases c t := by
  rw [declared, cssValue]
  cases (if aliases then aliased? c t else none) with
  | none => rfl
  | some target => rfl

/-- The written style sheet is the text of its declarations. -/
lemma css_eq_sheet (c : TokenList) (options : Fields) (now : Moment) :
    css c options now
      = sheet options now (declarations (options.getD "output_references").isTruthy c) := by
  rw [css, sheet, declarations, declaring, List.map_map]
  have hline : cssLine (options.getD "output_references").isTruthy c
      = (fun d : String × CssValue => "  --" ++ d.1 ++ ": " ++ d.2.written ++ ";") ∘ fun t =>
        (t.name, declared (options.getD "output_references").isTruthy c t) := by
    funext t
    rw [Function.comp, cssLine, written_declared]
  rw [hline]

/-- The option that asks for aliases changes nothing else of a style sheet. -/
lemma sheet_put (options : Fields) (v : Json) (now : Moment) (ds : Declarations) :
    sheet (options.put "output_references" v) now ds = sheet options now ds := by
  have hother : ∀ key, key ≠ "output_references" →
      (options.put "output_references" v).get? key = options.get? key := by
    intro key hkey
    rw [Fields.get?_put, if_neg hkey]
  have htitle : optionText (options.put "output_references" v) "title" usualTitle
      = optionText options "title" usualTitle := by
    rw [optionText, optionText, Fields.getD, Fields.getD, hother _ (by decide)]
  have hstamp : generated (options.put "output_references" v) now = generated options now := by
    rw [generated, generated, Fields.getD, Fields.getD, hother _ (by decide)]
  have hselector : cssSelector (options.put "output_references" v) = cssSelector options := by
    rw [cssSelector, cssSelector, hother _ (by decide)]
  rw [sheet, sheet, header, header, headerLines, headerLines, htitle, hstamp, hselector]

/-! ### Replacing aliases -/

/-- The value that is declared for the name of an alias, and other values as they are. -/
def CssValue.expand (ds : Declarations) : CssValue → CssValue
  | .alias name => (ds.lookup name).getD (.alias name)
  | .text s => .text s

/-- Every alias is replaced by the value that is declared for its name. -/
def expandOnce (ds : Declarations) : Declarations := ds.map fun d => (d.1, d.2.expand ds)

/-- Are there no aliases among the declarations? -/
def IsPlain (ds : Declarations) : Prop := ∀ d ∈ ds, ∀ name, d.2 ≠ .alias name

section Names

variable {c : TokenList} {f g : Token → CssValue}

/-- A name that no other token has declares the value of its token. -/
lemma lookup_declaring (hnames : (c.tokens.map Token.name).Nodup) {t : Token} (ht : t ∈ c.tokens) :
    (declaring c f).lookup t.name = some (f t) := by
  rw [declaring]
  generalize c.tokens = tokens at hnames ht
  induction tokens with
  | nil => exact absurd ht (by simp)
  | cons u rest ih =>
      rw [List.map_cons, List.nodup_cons] at hnames
      obtain ⟨hu, hrest⟩ := hnames
      rw [List.map_cons, List.lookup_cons]
      rcases List.mem_cons.mp ht with rfl | ht
      · simp
      · have hne : t.name ≠ u.name := fun e => hu (e ▸ List.mem_map_of_mem ht)
        rw [beq_false_of_ne hne]
        exact ih hrest ht

lemma expandOnce_declaring :
    expandOnce (declaring c f) = declaring c fun t => (f t).expand (declaring c f) := by
  rw [expandOnce, declaring, List.map_map]
  rfl

lemma declaring_eq_iff : declaring c f = declaring c g ↔ ∀ t ∈ c.tokens, f t = g t := by
  simp [declaring, List.map_inj_left]

lemma isPlain_declaring : IsPlain (declaring c f) ↔ ∀ t ∈ c.tokens, ∀ name, f t ≠ .alias name := by
  simp [IsPlain, declaring]

end Names

/-! ### Chains of aliases -/

section Aliases

variable {c : TokenList} {t u z : Token}

/-- An alias is declared as one reference, to a token of the list. -/
lemma aliased?_eq_some_iff : aliased? c t = some u ↔
    ∃ s name, t.declared = .str s ∧ Reference.IsWhole s name ∧
      c.get? (Reference.target (String.ofList name)) = some u := by
  rw [aliased?]
  constructor
  · intro h
    split at h
    · next s hs =>
        split at h
        · next name hname => exact ⟨s, name, hs, Reference.isWhole_iff.mpr hname, h⟩
        · exact absurd h (by simp)
    · exact absurd h (by simp)
  · rintro ⟨s, name, hs, hname, hget⟩
    rw [hs]
    simp only [Reference.isWhole_iff.mp hname]
    exact hget

/-- An alias is one of a token of the list. -/
lemma mem_of_aliased? (h : aliased? c t = some u) : u ∈ c.tokens := by
  obtain ⟨s, name, -, -, hget⟩ := aliased?_eq_some_iff.mp h
  exact List.mem_reverse.mp (List.mem_of_find?_eq_some hget)

/-- Are an alias and its target always the same text? -/
def AliasesAgree (c : TokenList) : Prop :=
  ∀ t ∈ c.tokens, ∀ u, aliased? c t = some u → t.value.bareText = u.value.bareText

/-- So many aliases lead from the first token to the second one, which is no alias. -/
inductive LeadsTo (c : TokenList) : Nat → Token → Token → Prop where
  | here {t : Token} : aliased? c t = none → LeadsTo c 0 t t
  | step {n : Nat} {t u z : Token} :
      aliased? c t = some u → LeadsTo c n u z → LeadsTo c (n + 1) t z

/-- Of the aliases that lead from a token to one that is none, the values leave only those that come
after the first rounds. -/
def Approaches (c : TokenList) (k : Nat) (f : Token → CssValue) : Prop :=
  ∀ t ∈ c.tokens, ∀ n z, LeadsTo c n t z →
    f t = .text z.value.bareText ∨
      ∃ u ∈ c.tokens, ∃ m, f t = .alias u.name ∧ LeadsTo c m u z ∧ m + k + 1 ≤ n

/-- A token is declared as text or as an alias of the next token. -/
lemma approaches_declared : Approaches c 0 (declared true c) := by
  intro t _ n z h
  cases h with
  | here hnone =>
      refine .inl ?_
      rw [declared, if_pos rfl, hnone]
  | @step m _ u _ hsome h =>
      refine .inr ⟨u, mem_of_aliased? hsome, m, ?_, h, by omega⟩
      rw [declared, if_pos rfl, hsome]

/-- One more round brings every alias nearer to its end. -/
lemma Approaches.expand {k : Nat} {f : Token → CssValue} (h : Approaches c k f)
    (hnames : (c.tokens.map Token.name).Nodup) :
    Approaches c (k + 1) fun t => (f t).expand (declaring c f) := by
  intro t ht n z hz
  rcases h t ht n z hz with htext | ⟨u, hu, m, halias, hlead, hm⟩
  · refine .inl ?_
    simp only [htext, CssValue.expand]
  · have hexpand : (f t).expand (declaring c f) = f u := by
      rw [halias, CssValue.expand, lookup_declaring hnames hu, Option.getD_some]
    simp only [hexpand]
    rcases h u hu m z hlead with htext | ⟨w, hw, l, halias', hlead', hl⟩
    · exact .inl htext
    · exact .inr ⟨w, hw, l, halias', hlead', by omega⟩

/-- After any number of rounds the values approach the ends of the aliases. -/
lemma exists_iterate_eq (hnames : (c.tokens.map Token.name).Nodup) (k : Nat) :
    ∃ f, expandOnce^[k] (declarations true c) = declaring c f ∧ Approaches c k f := by
  induction k with
  | zero => exact ⟨_, rfl, approaches_declared⟩
  | succ k ih =>
      obtain ⟨f, hf, h⟩ := ih
      refine ⟨_, ?_, h.expand hnames⟩
      rw [Function.iterate_succ_apply', hf, expandOnce_declaring]

/-- One number bounds the aliases that lead on from any of finitely many tokens. -/
lemma exists_bound {tokens : List Token} (h : ∀ t ∈ tokens, ∃ n z, LeadsTo c n t z) :
    ∃ bound, ∀ t ∈ tokens, ∃ n ≤ bound, ∃ z, LeadsTo c n t z := by
  induction tokens with
  | nil => exact ⟨0, by simp⟩
  | cons t rest ih =>
      obtain ⟨bound, hbound⟩ := ih fun u hu => h u (by simp [hu])
      obtain ⟨n, z, hz⟩ := h t (by simp)
      refine ⟨max n bound, List.forall_mem_cons.mpr ⟨⟨n, by omega, z, hz⟩, fun u hu => ?_⟩⟩
      obtain ⟨m, hm, w, hw⟩ := hbound u hu
      exact ⟨m, by omega, w, hw⟩

/-- **If no aliases lead on for ever, replacing them comes to an end**: after some rounds none is
left. -/
theorem isPlain_iterate (hnames : (c.tokens.map Token.name).Nodup)
    (h : ∀ t ∈ c.tokens, ∃ n z, LeadsTo c n t z) :
    ∃ k, IsPlain (expandOnce^[k] (declarations true c)) := by
  obtain ⟨k, hk⟩ := exists_bound h
  obtain ⟨f, hf, happroaches⟩ := exists_iterate_eq hnames k
  refine ⟨k, ?_⟩
  rw [hf, isPlain_declaring]
  intro t ht name hname
  obtain ⟨n, hn, z, hz⟩ := hk t ht
  rcases happroaches t ht n z hz with htext | ⟨u, -, m, -, -, hm⟩
  · rw [hname] at htext
    exact absurd htext (by simp)
  · omega

/-- If aliases and their targets are the same text, so are a token and the end of its aliases. -/
lemma LeadsTo.bareText_eq {n : Nat} (h : LeadsTo c n t z) (ht : t ∈ c.tokens)
    (hagree : AliasesAgree c) : t.value.bareText = z.value.bareText := by
  induction h with
  | here _ => rfl
  | step hsome _ ih => rw [hagree _ ht _ hsome, ih (mem_of_aliased? hsome)]

/-- **Without aliases left, the values are those of the ends of the aliases**: they are the values
that are declared without aliases exactly if an alias and its target are always the same text. -/
theorem iterate_eq_iff (hnames : (c.tokens.map Token.name).Nodup)
    (h : ∀ t ∈ c.tokens, ∃ n z, LeadsTo c n t z) {k : Nat}
    (hplain : IsPlain (expandOnce^[k] (declarations true c))) :
    expandOnce^[k] (declarations true c) = declarations false c ↔ AliasesAgree c := by
  obtain ⟨f, hf, happroaches⟩ := exists_iterate_eq hnames k
  rw [hf, isPlain_declaring] at hplain
  have hend : ∀ t ∈ c.tokens, ∀ n z, LeadsTo c n t z → f t = .text z.value.bareText := by
    intro t ht n z hz
    rcases happroaches t ht n z hz with htext | ⟨u, -, -, halias, -, -⟩
    · exact htext
    · exact absurd halias (hplain t ht _)
  rw [hf, declarations, declaring_eq_iff]
  have hfalse : ∀ t, declared false c t = .text t.value.bareText := fun t => rfl
  simp only [hfalse]
  constructor
  · intro hsame t ht u hsome
    have hu := mem_of_aliased? hsome
    obtain ⟨n, z, hz⟩ := h u hu
    have htz := (hsame t ht).symm.trans (hend t ht _ z (.step hsome hz))
    have huz := (hsame u hu).symm.trans (hend u hu n z hz)
    rw [CssValue.text.inj htz, CssValue.text.inj huz]
  · intro hagree t ht
    obtain ⟨n, z, hz⟩ := h t ht
    rw [hend t ht n z hz, hz.bareText_eq ht hagree]

end Aliases

/-! ### The tokens of documents -/

section Documents

variable {docs : List Document} {c shown : TokenList} {t u : Token}

/-- Every token that is shown comes from a resolved one by the steps of a chain. -/
def ComesFrom (steps : List Transform) (c shown : TokenList) : Prop :=
  ∀ t ∈ shown.tokens, ∃ t₀ ∈ c.tokens, t₀.path = t.path ∧ t₀.tag = t.tag ∧
    t₀.declared = t.declared ∧ Transform.valueAfter steps t₀ t₀.value = .ok t.value

lemma comesFrom_of_selected {titles : List String} {settings : Fields} {c' : TokenList}
    {name : Option String} (htransform : c.transform titles settings = .ok c')
    (hshown : c'.selected name = .ok shown) :
    ∃ steps, Transform.chain titles = .ok steps ∧ ComesFrom steps c shown := by
  obtain ⟨steps, hsteps, hall⟩ := TokenList.transform_spec htransform
  refine ⟨steps, hsteps, fun t ht => ?_⟩
  obtain ⟨t₀, ht₀, h⟩ := exists_of_mem_forall₂ hall ((TokenList.selected_sublist hshown).subset ht)
  obtain ⟨hsource, hvalue⟩ := Token.transform_spec h
  exact ⟨t₀, ht₀, by rw [hsource], by rw [hsource], by rw [hsource], hvalue⟩

/-- An alias is a reference from one definition of the documents to another one. -/
lemma refers_of_aliased? {d : Token} (hd : lastDefinition docs t.path = some d)
    (hdeclared : t.declared = d.value) (h : aliased? shown t = some u) :
    Refers (lastDefinition docs) t.path u.path := by
  obtain ⟨s, name, hs, hwhole, hget⟩ := aliased?_eq_some_iff.mp h
  have hmem : s ∈ d.value.strings := by simp [← hdeclared, hs, Json.strings]
  have hread := (Reference.mem_pieces_of_whole (Reference.isWhole_iff.mp hwhole)).mpr rfl
  refine ⟨d, hd, _, stripped_mem_references hmem hread, ?_⟩
  rw [Reference.target_stripped, TokenList.path_of_get? hget]

/-- An alias and its target have one resolved value. -/
lemma values_eq_of_aliased? (hresolve : resolve docs = .ok c) {d : Token}
    (hd : lastDefinition docs t.path = some d) (hdeclared : t.declared = d.value)
    (h : aliased? shown t = some u) : c.values t.path = c.values u.path := by
  obtain ⟨s, name, hs, hwhole, hget⟩ := aliased?_eq_some_iff.mp h
  obtain ⟨v, hv, hsub⟩ := (solves_values hresolve).exists_value hd
  rw [← hdeclared, hs] at hsub
  cases hsub with
  | str htext =>
      have hreplace := substitutedText_iff.mp htext
      rw [replaceInText, Reference.isWhole_iff.mp hwhole] at hreplace
      rw [hv, TokenList.path_of_get? hget]
      exact hreplace.symm

/-- No aliases of the tokens of documents lead on for ever. -/
lemma exists_leadsTo {steps : List Transform} (hresolve : resolve docs = .ok c)
    (hfrom : ComesFrom steps c shown) : ∀ t ∈ shown.tokens, ∃ n z, LeadsTo shown n t z := by
  intro t ht
  have hacc : Acc (fun q p => Refers (lastDefinition docs) p q) t.path := by
    obtain ⟨t₀, ht₀, hpath, -⟩ := hfrom t ht
    obtain ⟨-, -, -, hv⟩ := definition_of_mem_resolve hresolve ht₀
    exact acc_of_resolve hresolve (hpath ▸ hv)
  generalize hp : t.path = p at hacc
  induction hacc generalizing t with
  | intro p _ ih =>
      subst hp
      cases hu : aliased? shown t with
      | none => exact ⟨0, t, .here hu⟩
      | some u =>
          obtain ⟨t₀, ht₀, hpath, -, hdeclared, -⟩ := hfrom t ht
          obtain ⟨d, hd, hvalue, -⟩ := definition_of_mem_resolve hresolve ht₀
          have href : Refers (lastDefinition docs) t.path u.path :=
            refers_of_aliased? (hpath ▸ hd) (hdeclared ▸ hvalue) hu
          obtain ⟨n, z, hz⟩ := ih u.path href u (mem_of_aliased? hu) rfl
          exact ⟨n + 1, z, .step hu hz⟩

/-- Where each step accepts an alias exactly if it accepts the target, the two are the same text:
they begin with one value, and it is changed alike. -/
lemma aliasesAgree_of_accepts {steps : List Transform} (hresolve : resolve docs = .ok c)
    (hfrom : ComesFrom steps c shown)
    (haccepts : ∀ t ∈ shown.tokens, ∀ u, aliased? shown t = some u →
      ∀ s ∈ steps, s.accepts t = s.accepts u) : AliasesAgree shown := by
  intro t ht u hu
  obtain ⟨t₀, ht₀, hpath, htag, hdeclared, hvalue⟩ := hfrom t ht
  obtain ⟨u₀, hu₀, hpath', htag', -, hvalue'⟩ := hfrom u (mem_of_aliased? hu)
  obtain ⟨d, hd, hd', hv⟩ := definition_of_mem_resolve hresolve ht₀
  obtain ⟨-, -, -, hv'⟩ := definition_of_mem_resolve hresolve hu₀
  rw [hpath] at hd hv
  rw [hpath'] at hv'
  have hresolved := values_eq_of_aliased? hresolve hd (hdeclared.symm.trans hd') hu
  have hvalues : t₀.value = u₀.value := Option.some.inj (by rw [← hv, ← hv', hresolved])
  have haccepts₀ : ∀ s ∈ steps, s.accepts t₀ = s.accepts u₀ := by
    intro s hs
    rw [Transform.accepts_congr s hpath htag, haccepts t ht u hu s hs,
      Transform.accepts_congr s hpath' htag']
  rw [Transform.valueAfter_congr haccepts₀, hvalues, hvalue'] at hvalue
  rw [Except.ok.inj hvalue]

/-- **Replacing the aliases of a style sheet gives the style sheet without aliases exactly if every
alias and its target are the same text.** This is for the tokens of documents after any chain of
transforms that leaves their names different, and for any class of them: replacing every alias by
the value that is declared for its name comes to an end, and what is left is what is declared
without aliases exactly if aliases and targets agree. They do if each transform of the chain accepts
an alias exactly if it accepts the target. -/
theorem css_aliases_expand {titles : List String} {settings : Fields} {c' : TokenList}
    {name : Option String} (hresolve : resolve docs = .ok c)
    (htransform : c.transform titles settings = .ok c')
    (hnames : (c'.tokens.map Token.name).Nodup) (hshown : c'.selected name = .ok shown) :
    (∃ k, IsPlain (expandOnce^[k] (declarations true shown))) ∧
    (∀ k, IsPlain (expandOnce^[k] (declarations true shown)) →
      (expandOnce^[k] (declarations true shown) = declarations false shown ↔
        AliasesAgree shown)) ∧
    (∀ steps, Transform.chain titles = .ok steps →
      (∀ t ∈ shown.tokens, ∀ u, aliased? shown t = some u →
        ∀ s ∈ steps, s.accepts t = s.accepts u) → AliasesAgree shown) ∧
    ∀ options on now, (options.getD "output_references").isTruthy = false → on.isTruthy = true →
      css shown (options.put "output_references" on) now
        = sheet options now (declarations true shown) ∧
      (AliasesAgree shown → ∀ k, IsPlain (expandOnce^[k] (declarations true shown)) →
        sheet options now (expandOnce^[k] (declarations true shown)) = css shown options now) := by
  obtain ⟨steps, hsteps, hfrom⟩ := comesFrom_of_selected htransform hshown
  have hnames : (shown.tokens.map Token.name).Nodup :=
    hnames.sublist ((TokenList.selected_sublist hshown).map _)
  have hends := exists_leadsTo hresolve hfrom
  have hiff := fun k => iterate_eq_iff hnames hends (k := k)
  refine ⟨isPlain_iterate hnames hends, hiff, ?_, ?_⟩
  · intro steps' hsteps' haccepts
    obtain rfl := Except.ok.inj (hsteps.symm.trans hsteps')
    exact aliasesAgree_of_accepts hresolve hfrom haccepts
  · intro options on now hoff hon
    refine ⟨?_, fun hagree k hplain => ?_⟩
    · rw [css_eq_sheet, sheet_put, Fields.getD, Fields.get?_put, if_pos rfl, Option.getD_some, hon]
    · rw [css_eq_sheet, hoff, (hiff k hplain).mpr hagree]

end Documents

/-- A size, a gap of that size, and an edge of that gap. -/
def chainedSizes : Document :=
  ⟨"chained", [
    ("size", .obj [("value", .int 16), ("type", .str "dimension")]),
    ("gap", .obj [("value", .str "\x7bsize\x7d"), ("type", .str "dimension")]),
    ("edge", .obj [("value", .str " \x7b gap \x7d "), ("type", .str "number")])]⟩

/-- Aliases of aliases are replaced by the size, with the unit that all of them are given. -/
theorem css_aliases_expand_chained :
    ∃ c c', resolve [chainedSizes] = .ok c ∧ c.transform ["size/px"] [] = .ok c' ∧
      (c'.tokens.map Token.name).Nodup ∧ c'.selected (some "is_dimension") = .ok c' ∧
      declarations true c'
        = [("size", .text "16px"), ("gap", .alias "size"), ("edge", .alias "gap")] ∧
      ∃ k, IsPlain (expandOnce^[k] (declarations true c')) ∧
        ∀ now, sheet [] now (expandOnce^[k] (declarations true c')) = css c' [] now := by
  obtain ⟨c, c', hc, hc', hnames, hselected, hdeclared, hvalues⟩ : ∃ c c',
      resolve [chainedSizes] = .ok c ∧ c.transform ["size/px"] [] = .ok c' ∧
      c'.tokens.map Token.name = ["size", "gap", "edge"] ∧
      c'.selected (some "is_dimension") = .ok c' ∧
      declarations true c'
        = [("size", .text "16px"), ("gap", .alias "size"), ("edge", .alias "gap")] ∧
      c'.tokens.map (fun t => t.value.bareText) = ["16px", "16px", "16px"] :=
    ⟨_, _, rfl, rfl, rfl, rfl, rfl, rfl⟩
  have hnodup : (c'.tokens.map Token.name).Nodup := by
    rw [hnames]
    decide
  have htext : ∀ t ∈ c'.tokens, t.value.bareText = "16px" := by
    intro t ht
    have hmem := List.mem_map_of_mem ht (f := fun t => t.value.bareText)
    rw [hvalues] at hmem
    simpa using hmem
  have hagree : AliasesAgree c' := by
    intro t ht u hu
    rw [htext t ht, htext u (mem_of_aliased? hu)]
  obtain ⟨⟨k, hk⟩, -, -, hsheet⟩ := css_aliases_expand hc hc' hnodup hselected
  exact ⟨c, c', hc, hc', hnodup, hselected, hdeclared, k, hk,
    fun now => (hsheet [] (.bool true) now rfl rfl).2 hagree k hk⟩

/-- A size without a type tag, and a gap of that size with one. -/
def untaggedSizes : Document :=
  ⟨"untagged", [
    ("size", .obj [("value", .int 16)]),
    ("gap", .obj [("value", .str "\x7bsize\x7d"), ("type", .str "dimension")])]⟩

/-- A transform that gives the gap a unit leaves the size alone, and an alias of the size has none:
with its alias replaced, the style sheet is not the one without aliases. -/
theorem aliased_size_keeps_unit :
    ∃ c c', resolve [untaggedSizes] = .ok c ∧ c.transform ["size/px"] [] = .ok c' ∧
      (c'.tokens.map Token.name).Nodup ∧ c'.selected none = .ok c' ∧
      IsPlain (expandOnce^[1] (declarations true c')) ∧
      ∀ now, css c' [("output_references", .bool true)] now
          = sheet [] now (declarations true c') ∧
        sheet [] now (expandOnce^[1] (declarations true c')) ≠ css c' [] now := by
  obtain ⟨c, c', hc, hc', hnames, hselected, hexpanded, hplain⟩ : ∃ c c',
      resolve [untaggedSizes] = .ok c ∧ c.transform ["size/px"] [] = .ok c' ∧
      c'.tokens.map Token.name = ["size", "gap"] ∧ c'.selected none = .ok c' ∧
      expandOnce^[1] (declarations true c') = [("size", .text "16"), ("gap", .text "16")] ∧
      declarations false c' = [("size", .text "16"), ("gap", .text "16px")] :=
    ⟨_, _, rfl, rfl, rfl, rfl, rfl, rfl⟩
  refine ⟨c, c', hc, hc', ?_, hselected, ?_, fun now => ⟨?_, fun h => ?_⟩⟩
  · rw [hnames]
    decide
  · rw [hexpanded]
    simp [IsPlain]
  · rw [css_eq_sheet]
    exact sheet_put [] (.bool true) now _
  · have hoff : css c' [] now = sheet [] now (declarations false c') := css_eq_sheet c' [] now
    rw [hoff, hexpanded, hplain] at h
    have hlength := congrArg (fun s => s.toList.length) h
    simp [sheet, joinLines, CssValue.written] at hlength

end StyleTokens.Output
