import StyleTokens.Proofs.Findings
import StyleTokens.Proofs.NameSteps

/-!
Units of sizes.

* `SizeUnit`, `SizeUnit.step`, `SizeUnit.Suits`: the units, the transforms that give them to numbers, and
  the tokens that they are for;
* `SizeUnit.accepts_step`: whether such a transform accepts a token;
* `Json.sized`: a number with the first of some units that suits a token;
* `Transform.valueAfter_units`: one step after the other gives that value, since a number with a unit is
  no number any more;
* `TokenList.transform_sizes`: the same for lists of tokens, where a second run changes nothing.
-/

namespace StyleTokens

/-! ### Units -/

/-- A unit of sizes. -/
inductive SizeUnit where
  | px
  | dp
  | sp
  deriving DecidableEq, Repr

namespace SizeUnit

/-- The unit behind a number. -/
def text : SizeUnit → String
  | .px => "px"
  | .dp => "dp"
  | .sp => "sp"

/-- The transform that gives numbers the unit. -/
def step : SizeUnit → Transform
  | .px => .px
  | .dp => .dp
  | .sp => .sp

/-- Is the unit for the token? Two of them are for the type tags of sizes; the third one is for paths
that speak of a font and of a size or a line height. -/
def Suits (t : Token) : SizeUnit → Prop
  | .px | .dp => t.tag.IsAmong numericTags
  | .sp => "font".toList <:+: t.dotted.toList ∧
      ("size".toList <:+: t.dotted.toList ∨ "line_height".toList <:+: t.dotted.toList)

instance (t : Token) : (u : SizeUnit) → Decidable (u.Suits t)
  | .px | .dp => inferInstanceAs (Decidable (t.tag.IsAmong numericTags))
  | .sp => inferInstanceAs (Decidable (_ ∧ _))

variable {t : Token}

/-- The transform accepts the tokens that the unit is for, unless the type tag cannot be looked up. -/
lemma accepts_step (h : t.tag.compositeKey? = none) (u : SizeUnit) :
    u.step.accepts t = .ok (decide (u.Suits t)) := by
  have htag : TokenFilter.dimension.accepts t = .ok (decide (t.tag.IsAmong numericTags)) := by
    simp only [TokenFilter.accepts, Json.isOneOf_of_plain numericTags h]
    rfl
  have hpath : TokenFilter.namesFontSize t.path = decide (SizeUnit.sp.Suits t) := by
    rw [Bool.eq_iff_iff, TokenFilter.namesFontSize, Bool.and_eq_true, Bool.or_eq_true,
      decide_eq_true_eq]
    simp only [Text.occursIn_iff]
    rfl
  cases u with
  | px => exact htag
  | dp => exact htag
  | sp => exact congrArg Except.ok hpath

lemma newValue_step (u : SizeUnit) (v : Json) :
    u.step.newValue v = .ok (Transform.withUnit u.text v) := by
  cases u <;> rfl

end SizeUnit

/-! ### Numbers with units -/

/-- The value with the first of the units that suits the token, if it is a number. -/
def Json.sized (units : List SizeUnit) (t : Token) (v : Json) : Json :=
  match v.numberText?, units.find? fun u => u.Suits t with
  | some number, some u => .str (number ++ u.text)
  | _, _ => v

section Sized

variable {t : Token} {v : Json} {units : List SizeUnit}

/-- A value without a number as its text is no number. -/
lemma Json.numberText?_eq_none_iff : v.numberText? = none ↔ v.isNumber = false := by
  cases v <;> simp [numberText?, isNumber]

/-- Values other than numbers are left alone. -/
lemma Json.sized_of_not_number (h : v.numberText? = none) (units : List SizeUnit) (t : Token) :
    v.sized units t = v := by
  rw [sized, h]

/-- A number with a unit is no number any more, and without one no unit suits. -/
lemma Json.sized_sized (units : List SizeUnit) (t : Token) (v : Json) :
    (v.sized units t).sized units t = v.sized units t := by
  cases hnumber : v.numberText? with
  | none => rw [sized_of_not_number hnumber, sized_of_not_number hnumber]
  | some number =>
      cases hunit : units.find? fun u => u.Suits t with
      | none =>
          have hleft : v.sized units t = v := by rw [sized, hnumber, hunit]
          rw [hleft, hleft]
      | some u =>
          have hgiven : v.sized units t = .str (number ++ u.text) := by rw [sized, hnumber, hunit]
          rw [hgiven, sized_of_not_number rfl]

/-- The first unit decides if it suits the token. -/
lemma Json.sized_cons_of_suits {u : SizeUnit} (h : u.Suits t) :
    v.sized (u :: units) t = Transform.withUnit u.text v := by
  rw [sized, List.find?_cons_of_pos (by simpa using h), Transform.withUnit]
  cases v.numberText? <;> rfl

/-- A unit that does not suit the token makes no difference. -/
lemma Json.sized_cons_of_not_suits {u : SizeUnit} (h : ¬ u.Suits t) :
    v.sized (u :: units) t = v.sized units t := by
  rw [sized, List.find?_cons_of_neg (by simpa using h), sized]

/-- **One unit after the other**: the first one that suits the token is given to a number, and later
ones find no number. -/
theorem Transform.valueAfter_units (h : t.tag.compositeKey? = none) (units : List SizeUnit) (v : Json) :
    valueAfter (units.map SizeUnit.step) t v = .ok (v.sized units t) := by
  induction units generalizing v with
  | nil =>
      rw [Json.sized, List.find?_nil]
      cases v.numberText? <;> rfl
  | cons u units ih =>
      have hfirst : valueAfter [u.step] t v
          = .ok (if u.Suits t then withUnit u.text v else v) := by
        rw [valueAfter, List.foldlM_cons, SizeUnit.accepts_step h, ok_bind, SizeUnit.newValue_step]
        by_cases hsuits : u.Suits t <;> simp [hsuits, bind, Except.bind, pure, Except.pure]
      rw [List.map_cons, valueAfter_cons, hfirst, ok_bind, ih]
      by_cases hsuits : u.Suits t
      · have hstays : (withUnit u.text v).sized units t = withUnit u.text v := by
          refine Json.sized_of_not_number ?_ units t
          rw [withUnit]
          split
          · rfl
          · assumption
        rw [if_pos hsuits, hstays, Json.sized_cons_of_suits hsuits]
      · rw [if_neg hsuits, Json.sized_cons_of_not_suits hsuits]

end Sized

/-! ### Tokens -/

/-- The token with its value in the first of the units that suits it. -/
def Token.sized (units : List SizeUnit) (t : Token) : Token := { t with value := t.value.sized units t }

/-- The name stays. -/
lemma Transform.finalName_units (units : List SizeUnit) (options : Fields) (t : Token) :
    finalName (units.map SizeUnit.step) options t = t.name := by
  have hnone : (units.map SizeUnit.step).filterMap style? = [] := by
    rw [List.filterMap_eq_nil_iff]
    intro s hs
    obtain ⟨u, -, rfl⟩ := List.mem_map.mp hs
    cases u <;> rfl
  rw [finalName, lastStyle?, hnone]
  rfl

/-- A chain of units on a token. -/
lemma Token.transform_units {t : Token} (h : t.tag.compositeKey? = none) (units : List SizeUnit)
    (options : Fields) :
    t.transform (units.map SizeUnit.step) options = .ok (t.sized units) := by
  rw [Token.transform_eq, Transform.valueAfter_units h, Transform.finalName_units]
  rfl

/-- A chain of units on tokens. -/
lemma TokenList.transform_units {c : TokenList} (h : ∀ t ∈ c.tokens, t.tag.compositeKey? = none)
    (units : List SizeUnit) (options : Fields) :
    c.transform (units.map fun u => u.step.title) options
      = .ok ⟨c.tokens.map (Token.sized units)⟩ := by
  have htitles : (units.map fun u => u.step.title)
      = (units.map SizeUnit.step).map Transform.title := by
    rw [List.map_map]
    rfl
  have htokens : c.tokens.mapM (Token.transform (units.map SizeUnit.step) options)
      = .ok (c.tokens.map (Token.sized units)) := by
    rw [mapM_eq_ok_iff, List.forall₂_map_right_iff, List.forall₂_same]
    exact fun t ht => Token.transform_units (h t ht) units options
  rw [htitles, transform_titles, htokens]
  rfl

/-- The second token is the first one with its value in the first of the units whose transform accepts
it. A number is written without a superfluous point in front of the unit, and stays if there is none;
values other than numbers stay. -/
structure SizedBy (units : List SizeUnit) (t t' : Token) : Prop where
  rest : t' = { t with value := t'.value }
  first : ∀ before u after number, units = before ++ u :: after →
    (∀ v ∈ before, v.step.accepts t = .ok false) → u.step.accepts t = .ok true →
      t.value.numberText? = some number → t'.value = .str (number ++ u.text)
  unsuited : (∀ u ∈ units, u.step.accepts t = .ok false) → t'.value = t.value
  other : t.value.isNumber = false → t'.value = t.value

lemma sizedBy_sized {t : Token} (h : t.tag.compositeKey? = none) (units : List SizeUnit) :
    SizedBy units t (t.sized units) := by
  have haccepts : ∀ (u : SizeUnit) (b : Bool),
      u.step.accepts t = .ok b ↔ decide (u.Suits t) = b := by
    intro u b
    rw [SizeUnit.accepts_step h, Except.ok.injEq]
  constructor
  case rest => rfl
  case first =>
    intro before u after number hunits hbefore hu hnumber
    have hfirst : units.find? (fun u => u.Suits t) = some u := by
      rw [List.find?_eq_some_iff_append]
      refine ⟨(haccepts u true).mp hu, before, after, hunits, fun v hv => ?_⟩
      simpa using (haccepts v false).mp (hbefore v hv)
    change t.value.sized units t = _
    rw [Json.sized, hnumber, hfirst]
  case unsuited =>
    intro hnone
    have hfind : units.find? (fun u => u.Suits t) = none := by
      rw [List.find?_eq_none]
      intro u hu
      simpa using (haccepts u false).mp (hnone u hu)
    change t.value.sized units t = _
    rw [Json.sized, hfind]
    cases t.value.numberText? <;> rfl
  case other =>
    exact fun hother => Json.sized_of_not_number (Json.numberText?_eq_none_iff.mpr hother) units t

/-- **The first unit wins.** If no type tag is a list or an object, a chain of units, however long,
gives every token its number in the first of the units whose transform accepts the token; numbers that
no unit is for and all other values stay, and a second run of the chain changes nothing. Two of the
units are for the type tags of sizes, the third one is for paths that speak of a font and of a size or
a line height. -/
theorem TokenList.transform_sizes {c : TokenList}
    (htags : ∀ t ∈ c.tokens, t.tag.compositeKey? = none) (units : List SizeUnit) (options : Fields) :
    (∀ t ∈ c.tokens, ∀ u : SizeUnit, u.step.accepts t = .ok (decide (u.Suits t))) ∧
    ∃ c', c.transform (units.map fun u => u.step.title) options = .ok c' ∧
      List.Forall₂ (SizedBy units) c.tokens c'.tokens ∧
      c'.transform (units.map fun u => u.step.title) options = .ok c' := by
  have hagain : (c.tokens.map (Token.sized units)).map (Token.sized units)
      = c.tokens.map (Token.sized units) := by
    rw [List.map_map]
    refine List.map_congr_left fun t _ => ?_
    change { t with value := (t.value.sized units t).sized units t } = t.sized units
    rw [Json.sized_sized]
    rfl
  refine ⟨fun t ht u => SizeUnit.accepts_step (htags t ht) u, _,
    TokenList.transform_units htags units options, ?_, ?_⟩
  · rw [List.forall₂_map_right_iff, List.forall₂_same]
    exact fun t ht => sizedBy_sized (htags t ht) units
  · rw [TokenList.transform_units _ units options, hagain]
    intro t ht
    obtain ⟨u, hu, rfl⟩ := List.mem_map.mp ht
    exact htags u hu

/-- Sizes of fonts and of other things, a boolean and a text, all with the same type tag. -/
def fontsAndGaps : TokenList :=
  ⟨[{ path := ["font_size", "body"], value := .int 16, tag := .str "dimension" },
    { path := ["gap", "wide"], value := .int 8, tag := .str "dimension" },
    { path := ["font", "line_height"], value := .int 20 },
    { path := ["gap", "none"], value := .bool false, tag := .str "number" },
    { path := ["gap", "auto"], value := .str "auto", tag := .str "number" }]⟩

/-- Sizes of fonts have a unit of their own, which comes first; the others have the next one, and a
third one comes too late. -/
theorem transform_sizes_fonts :
    (∀ t ∈ fontsAndGaps.tokens, t.tag.compositeKey? = none) ∧
      ∃ c', fontsAndGaps.transform ["size/sp", "size/dp", "size/px"] [] = .ok c' ∧
        List.Forall₂ (SizedBy [.sp, .dp, .px]) fontsAndGaps.tokens c'.tokens ∧
        c'.transform ["size/sp", "size/dp", "size/px"] [] = .ok c' ∧
        c'.valueList = [.str "16sp", .str "8dp", .str "20sp", .bool false, .str "auto"] := by
  have htags : ∀ t ∈ fontsAndGaps.tokens, t.tag.compositeKey? = none := by decide
  obtain ⟨-, c', hc', hsized, hagain⟩ := TokenList.transform_sizes htags [.sp, .dp, .px] []
  refine ⟨htags, c', hc', hsized, hagain, ?_⟩
  obtain ⟨d, hd, hvalues⟩ : ∃ d,
      fontsAndGaps.transform ["size/sp", "size/dp", "size/px"] [] = .ok d ∧
      d.valueList = [.str "16sp", .str "8dp", .str "20sp", .bool false, .str "auto"] :=
    ⟨_, rfl, rfl⟩
  obtain rfl := Except.ok.inj (hd.symm.trans hc')
  exact hvalues

end StyleTokens
