import Mathlib.Data.List.Induction
import Mathlib.Data.List.Sort
import StyleTokens.Output.Format
import StyleTokens.Proofs.Basic

/-!
Enumerations for categories.

* `pairwise_idxOf_eraseDups`: elements without repetitions stand in the order in which they first
  appear;
* `Output.byCategory_eq_map`: groups to which tokens are added one by one are those of the
  categories in this order, each with its tokens among all;
* `Output.perm_byCategory`: the groups have all tokens, as often as they are given;
* `Output.Enumeration`, `Output.enumerations`: the enumerations of a file, as data;
* `Output.swift_eq_map`: the file is their text;
* `Output.Declares`: a line that declares a constant for a token, by its name, its type and its
  value;
* `Output.IsPartition`: enumerations that are a stable partition of tokens by their first keys, with
  a declaration for every token;
* `Output.swift_partition`: the files are the texts of such enumerations, and there is no file
  exactly if a colour cannot be read.
-/

namespace StyleTokens

/-! ### First appearances -/

section FirstAppearances

variable {κ : Type} [BEq κ] [LawfulBEq κ]

/-- Without repetitions, elements stand in the order in which they first appear. -/
lemma pairwise_idxOf_eraseDups (xs : List κ) :
    xs.eraseDups.Pairwise fun a b => xs.idxOf a < xs.idxOf b := by
  induction xs using List.reverseRecOn with
  | nil => exact .nil
  | append_singleton xs x ih =>
      have hearlier :
          xs.eraseDups.Pairwise fun a b => (xs ++ [x]).idxOf a < (xs ++ [x]).idxOf b := by
        refine ih.imp_of_mem fun ha hb h => ?_
        rw [List.mem_eraseDups] at ha hb
        rwa [List.idxOf_append_of_mem ha, List.idxOf_append_of_mem hb]
      rw [eraseDups_concat]
      split
      · exact hearlier
      · next hnew =>
          refine List.pairwise_append.mpr ⟨hearlier, List.pairwise_singleton _ _, fun a ha b hb => ?_⟩
          obtain rfl := List.mem_singleton.mp hb
          rw [List.mem_eraseDups] at ha
          rw [List.idxOf_append_of_mem ha, List.idxOf_append_of_notMem hnew]
          exact Nat.lt_add_right _ (List.idxOf_lt_length_iff.mpr ha)

lemma nodup_eraseDups (xs : List κ) : xs.eraseDups.Nodup :=
  (pairwise_idxOf_eraseDups xs).imp fun h => ne_of_apply_ne xs.idxOf (Nat.ne_of_lt h)

end FirstAppearances

namespace Output

/-! ### Groups -/

/-- The tokens of a category among others. -/
def group (tokens : List Token) (category : String) : String × List Token :=
  (category, tokens.filter fun t => t.category == category)

section Groups

variable (tokens : List Token) (t : Token)

lemma group_concat_self :
    group (tokens ++ [t]) t.category = (t.category, (group tokens t.category).2 ++ [t]) := by
  simp [group]

lemma group_concat_of_ne {category : String} (h : category ≠ t.category) :
    group (tokens ++ [t]) category = group tokens category := by
  simp [group, Ne.symm h]

/-- Where there is a group for the category, the token goes there. -/
lemma addToGroup_of_mem {categories : List String} (hnodup : categories.Nodup)
    (h : t.category ∈ categories) :
    addToGroup t (categories.map (group tokens)) = categories.map (group (tokens ++ [t])) := by
  induction categories with
  | nil => cases h
  | cons category categories ih =>
      obtain ⟨hmem, hnodup⟩ := List.nodup_cons.mp hnodup
      rw [List.map_cons, List.map_cons, group, addToGroup]
      split
      · next heq =>
          have hothers : ∀ d ∈ categories, group tokens d = group (tokens ++ [t]) d := by
            rintro d hd
            exact (group_concat_of_ne tokens t fun h => hmem (heq.trans h.symm ▸ hd)).symm
          rw [List.map_congr_left hothers, heq, group_concat_self]
          rfl
      · next hne =>
          have hlater : t.category ∈ categories :=
            (List.mem_cons.mp h).resolve_left (Ne.symm hne)
          rw [ih hnodup hlater, group_concat_of_ne tokens t hne]
          rfl

/-- Where there is none, it makes a new group. -/
lemma addToGroup_of_not_mem {categories : List String} (h : t.category ∉ categories) :
    addToGroup t (categories.map (group tokens))
      = categories.map (group (tokens ++ [t])) ++ [(t.category, [t])] := by
  induction categories with
  | nil => rfl
  | cons category categories ih =>
      rw [List.mem_cons, not_or] at h
      rw [List.map_cons, List.map_cons, group, addToGroup, if_neg (Ne.symm h.1), ih h.2,
        group_concat_of_ne tokens t (Ne.symm h.1)]
      rfl

/-- Groups are made as tokens come. -/
lemma byCategory_concat : byCategory (tokens ++ [t]) = addToGroup t (byCategory tokens) :=
  List.foldl_concat ..

lemma perm_addToGroup (groups : List (String × List Token)) :
    ((addToGroup t groups).flatMap Prod.snd).Perm (groups.flatMap Prod.snd ++ [t]) := by
  induction groups with
  | nil => exact .refl _
  | cons g groups ih =>
      obtain ⟨category, members⟩ := g
      rw [addToGroup]
      split
      · simp only [List.flatMap_cons, List.append_assoc]
        exact List.perm_append_comm.append_left members
      · simp only [List.flatMap_cons, List.append_assoc]
        exact ih.append_left members

end Groups

/-- **There is one group for every category**, in the order in which these first appear, with the
tokens of this category in their order. -/
theorem byCategory_eq_map (tokens : List Token) :
    byCategory tokens = (tokens.map Token.category).eraseDups.map (group tokens) := by
  induction tokens using List.reverseRecOn with
  | nil => rfl
  | append_singleton tokens t ih =>
      rw [byCategory_concat, ih, List.map_append, List.map_singleton, eraseDups_concat]
      split
      · next h => exact addToGroup_of_mem tokens t (nodup_eraseDups _) (List.mem_eraseDups.mpr h)
      · next h =>
          have hnone : (group tokens t.category).2 = [] := by
            rw [group, List.filter_eq_nil_iff]
            intro u hu hcategory
            exact h (List.mem_map.mpr ⟨u, hu, by simpa using hcategory⟩)
          rw [addToGroup_of_not_mem tokens t (mt List.mem_eraseDups.mp h), List.map_append,
            List.map_singleton, group_concat_self, hnone]
          rfl

/-- **The groups have all tokens**, each as often as it is given. -/
theorem perm_byCategory (tokens : List Token) :
    ((byCategory tokens).flatMap Prod.snd).Perm tokens := by
  induction tokens using List.reverseRecOn with
  | nil => exact .refl _
  | append_singleton tokens t ih =>
      rw [byCategory_concat]
      exact (perm_addToGroup t _).trans (ih.append_right [t])

/-! ### Enumerations -/

/-- An enumeration of a file: a category, its tokens and their declarations. -/
structure Enumeration where
  category : String
  members : List Token
  declarations : List String

/-- The lines of an enumeration. -/
def Enumeration.lines (e : Enumeration) : List String :=
  let name := pascalName [e.category]
  ("    public enum " ++ (if name = "" then "Misc" else name) ++ " \x7b") ::
    e.declarations.map ("        " ++ ·) ++ ["    \x7d"]

/-- The enumeration of a group of tokens. -/
def enumeration (g : String × List Token) : Except OutputError Enumeration :=
  (g.2.mapM swiftDeclaration).map fun declarations => ⟨g.1, g.2, declarations⟩

/-- The enumerations of tokens. -/
def enumerations (tokens : List Token) : Except OutputError (List Enumeration) :=
  (byCategory tokens).mapM enumeration

/-- A file with enumerations, as text. -/
def swiftText (options : Fields) (now : Moment) (enums : List Enumeration) : String :=
  joinLines ([header .line "Swift" options now, "", "import SwiftUI", "",
      "public enum " ++ optionText options "namespace" usualNamespace ++ " \x7b"] ++
    enums.flatMap Enumeration.lines ++ ["\x7d"]) ++ "\n\n" ++ swiftExtension

/-- **A file is the text of its enumerations.** -/
theorem swift_eq_map (c : TokenList) (options : Fields) (now : Moment) :
    swift c options now = (enumerations c.tokens).map (swiftText options now) := by
  have henum : ∀ g : String × List Token,
      swiftEnum g.1 g.2 = (enumeration g).map Enumeration.lines := by
    intro g
    rw [swiftEnum, enumeration]
    cases g.2.mapM swiftDeclaration <;> rfl
  have hmap : ((byCategory c.tokens).mapM fun g => swiftEnum g.1 g.2)
      = (enumerations c.tokens).map (List.map Enumeration.lines) := by
    simp only [henum]
    exact mapM_map enumeration Enumeration.lines (byCategory c.tokens)
  rw [swift]
  change ((byCategory c.tokens).mapM fun g => swiftEnum g.1 g.2) >>= _ = _
  rw [hmap]
  cases enumerations c.tokens with
  | error e => rfl
  | ok enums =>
      rw [Except.map, ok_bind, ← List.flatMap_def]
      rfl

section Enumerations

variable {tokens : List Token} {enums : List Enumeration}

lemma enumeration_eq_ok_iff {g : String × List Token} {e : Enumeration} :
    enumeration g = .ok e ↔ (e.category, e.members) = g ∧
      List.Forall₂ (fun t d => swiftDeclaration t = .ok d) e.members e.declarations := by
  obtain ⟨category, members, declarations⟩ := e
  constructor
  · intro h
    obtain ⟨ds, hds, h⟩ := exists_of_map_eq_ok h
    obtain ⟨rfl, rfl, rfl⟩ := Enumeration.mk.inj h
    exact ⟨rfl, mapM_eq_ok_iff.mp hds⟩
  · rintro ⟨rfl, h⟩
    rw [enumeration, mapM_eq_ok_iff.mpr h]
    rfl

/-- The enumerations have the groups for their categories and tokens, and a declaration for every
token. -/
lemma spec_of_enumerations (h : enumerations tokens = .ok enums) :
    enums.map (fun e => (e.category, e.members)) = byCategory tokens ∧
      ∀ e ∈ enums, List.Forall₂ (fun t d => swiftDeclaration t = .ok d) e.members e.declarations := by
  have hgroups := mapM_eq_ok_iff.mp h
  constructor
  · have hequal : List.Forall₂ Eq (byCategory tokens)
        (enums.map fun e => (e.category, e.members)) := by
      rw [List.forall₂_map_right_iff]
      exact hgroups.imp fun g e h => (enumeration_eq_ok_iff.mp h).1.symm
    exact (List.forall₂_eq_eq_eq ▸ hequal).symm
  · intro e he
    obtain ⟨g, -, hg⟩ := exists_of_mem_forall₂ hgroups he
    exact (enumeration_eq_ok_iff.mp hg).2

/-- Their categories are those of the tokens, in the order in which they first appear. -/
lemma categories_of_enumerations (h : enumerations tokens = .ok enums) :
    enums.map Enumeration.category = (tokens.map Token.category).eraseDups := by
  have hkeys := congrArg (List.map Prod.fst) (spec_of_enumerations h).1
  rw [byCategory_eq_map, List.map_map, List.map_map] at hkeys
  exact hkeys.trans (List.map_id _)

/-- They have all tokens, each as often as it is given. -/
lemma perm_of_enumerations (h : enumerations tokens = .ok enums) :
    (enums.flatMap Enumeration.members).Perm tokens := by
  have hperm := perm_byCategory tokens
  rwa [← (spec_of_enumerations h).1, List.flatMap_map] at hperm

/-- There are enumerations exactly if there is a declaration for every token. -/
lemma exists_enumerations_iff :
    (∃ enums, enumerations tokens = .ok enums) ↔
      ∀ t ∈ tokens, ∃ d, swiftDeclaration t = .ok d := by
  have hgroup : ∀ g : String × List Token, (∃ e, enumeration g = .ok e) ↔
      ∀ t ∈ g.2, ∃ d, swiftDeclaration t = .ok d := by
    intro g
    rw [← exists_mapM_eq_ok_iff, enumeration]
    constructor
    · rintro ⟨e, h⟩
      obtain ⟨ds, hds, -⟩ := exists_of_map_eq_ok h
      exact ⟨ds, hds⟩
    · rintro ⟨ds, hds⟩
      exact ⟨_, by rw [hds]; rfl⟩
  rw [enumerations, exists_mapM_eq_ok_iff]
  simp only [hgroup]
  constructor
  · intro h t ht
    obtain ⟨g, hg, ht⟩ := List.mem_flatMap.mp ((perm_byCategory tokens).mem_iff.mpr ht)
    exact h g hg t ht
  · intro h g hg t ht
    exact h t ((perm_byCategory tokens).mem_iff.mp (List.mem_flatMap.mpr ⟨g, hg, ht⟩))

end Enumerations

/-! ### Declarations -/

/-- The type of the constant for a token, if it is told, and its value: a colour by its digits and,
if it is not solid, its opacity; the text of a number; or a string literal with the text of any
other value. -/
inductive HasConstant (t : Token) : String → String → Prop where
  | solidColor {c : Color} : t.tag.isText "color" = true → Color.read t.value = .ok c →
      c.isSolid = true → HasConstant t "" ("SwiftUI.Color(hex: 0x" ++ c.rgbHex ++ ")")
  | color {c : Color} : t.tag.isText "color" = true → Color.read t.value = .ok c →
      c.isSolid = false → HasConstant t ""
        ("SwiftUI.Color(hex: 0x" ++ c.rgbHex ++ ", alpha: " ++ c.alphaFixed ++ ")")
  | number : t.tag.isText "color" = false → t.value.isNumber = true →
      HasConstant t ": CGFloat" t.value.bareText
  | text : t.tag.isText "color" = false → t.value.isNumber = false →
      HasConstant t "" (inDoubleMarks t.value.bareText)

/-- The line declares a constant for the token under its name. -/
def Declares (t : Token) (line : String) : Prop :=
  ∃ type value, HasConstant t type value ∧
    line = "public static let " ++ swiftName t ++ type ++ " = " ++ value

section Expressions

variable {c : Color}

lemma swiftExpression_of_isSolid (h : c.isSolid = true) :
    swiftExpression c = "SwiftUI.Color(hex: 0x" ++ c.rgbHex ++ ")" := by
  delta swiftExpression
  rw [if_pos h, String.append_empty]

lemma swiftExpression_of_not_isSolid (h : c.isSolid = false) : swiftExpression c
    = "SwiftUI.Color(hex: 0x" ++ c.rgbHex ++ ", alpha: " ++ c.alphaFixed ++ ")" := by
  delta swiftExpression
  rw [if_neg (Bool.eq_false_iff.mp h)]
  simp only [String.append_assoc]

end Expressions

/-- What is written for a token declares a constant for it. -/
lemma declares_of_swiftDeclaration {t : Token} {line : String} (h : swiftDeclaration t = .ok line) :
    Declares t line := by
  rw [swiftDeclaration] at h
  cases hcolor : t.tag.isText "color" with
  | true =>
      rw [hcolor, if_pos rfl] at h
      obtain ⟨c, hread, h⟩ := exists_of_bind_eq_ok h
      have hread := eq_ok_of_mapError_eq_ok hread
      obtain rfl := Except.ok.inj h
      cases hsolid : c.isSolid with
      | true =>
          exact ⟨_, _, .solidColor hcolor hread hsolid,
            by rw [swiftExpression_of_isSolid hsolid, String.append_empty]⟩
      | false =>
          exact ⟨_, _, .color hcolor hread hsolid,
            by rw [swiftExpression_of_not_isSolid hsolid, String.append_empty]⟩
  | false =>
      rw [hcolor, if_neg Bool.false_ne_true] at h
      split at h
      · next hvalue =>
          have hnumber : ": CGFloat = " = ": CGFloat" ++ " = " := rfl
          obtain rfl := Except.ok.inj h
          exact ⟨_, _, .number hcolor hvalue, by rw [hnumber, ← String.append_assoc]⟩
      · next hvalue =>
          obtain rfl := Except.ok.inj h
          exact ⟨_, _, .text hcolor (Bool.eq_false_iff.mpr hvalue), by rw [String.append_empty]⟩

/-- A constant for a token is what is written for it. -/
lemma HasConstant.swiftDeclaration_eq {t : Token} {type value : String}
    (h : HasConstant t type value) : swiftDeclaration t
      = .ok ("public static let " ++ swiftName t ++ type ++ " = " ++ value) := by
  rw [swiftDeclaration]
  cases h with
  | solidColor hcolor hread hsolid =>
      rw [if_pos hcolor, mapError_eq_ok_iff.mpr hread, ok_bind, swiftExpression_of_isSolid hsolid,
        String.append_empty]
      rfl
  | color hcolor hread hsolid =>
      rw [if_pos hcolor, mapError_eq_ok_iff.mpr hread, ok_bind,
        swiftExpression_of_not_isSolid hsolid, String.append_empty]
      rfl
  | number hcolor hvalue =>
      have hnumber : ": CGFloat = " = ": CGFloat" ++ " = " := rfl
      rw [if_neg (Bool.eq_false_iff.mp hcolor), if_pos hvalue, hnumber, ← String.append_assoc]
      rfl
  | text hcolor hvalue =>
      rw [if_neg (Bool.eq_false_iff.mp hcolor), if_neg (Bool.eq_false_iff.mp hvalue),
        String.append_empty]
      rfl

/-- **What is written for a token declares a constant for it**, and nothing else is such a line. -/
theorem swiftDeclaration_eq_ok_iff {t : Token} {line : String} :
    swiftDeclaration t = .ok line ↔ Declares t line := by
  refine ⟨declares_of_swiftDeclaration, ?_⟩
  rintro ⟨type, value, hconstant, rfl⟩
  exact hconstant.swiftDeclaration_eq

/-- There is no declaration for a colour that cannot be read, and for no other reason. -/
lemma swiftDeclaration_eq_error_iff {t : Token} {e : OutputError} :
    swiftDeclaration t = .error e ↔
      t.tag.isText "color" = true ∧ ∃ e', Color.read t.value = .error e' ∧ .color e' = e := by
  rw [swiftDeclaration]
  split
  · next hcolor =>
      rw [bind_eq_error_iff]
      constructor
      · rintro (h | ⟨color, -, h⟩)
        · exact ⟨hcolor, exists_of_mapError_eq_error h⟩
        · cases h
      · rintro ⟨-, e', h, rfl⟩
        exact .inl (by rw [h]; rfl)
  · next hcolor =>
      refine iff_of_false ?_ fun h => hcolor h.1
      split <;> rintro ⟨⟩

/-- If there are no enumerations, the reason is that of a token without a declaration. -/
lemma exists_of_enumerations_eq_error {tokens : List Token} {e : OutputError}
    (h : enumerations tokens = .error e) : ∃ t ∈ tokens, swiftDeclaration t = .error e := by
  obtain ⟨_, g, _, hgroups, -, hg⟩ := mapM_eq_error_iff.mp h
  obtain ⟨_, t, _, htokens, -, ht⟩ := mapM_eq_error_iff.mp (eq_error_of_map_eq_error hg)
  have hg : g ∈ byCategory tokens := by simp [hgroups]
  have ht' : t ∈ g.2 := by simp [htokens]
  exact ⟨t, (perm_byCategory tokens).mem_iff.mp (List.mem_flatMap.mpr ⟨g, hg, ht'⟩), ht⟩

/-! ### Files -/

/-- The tokens fall into the enumerations by their first keys. There is one enumeration for every
first key, in the order in which these first appear; it has the tokens with this key, in their
order, and one line for each of them that declares it. No token is left out, and none is there
twice. -/
structure IsPartition (tokens : List Token) (enums : List Enumeration) : Prop where
  category : ∀ key, key ∈ enums.map Enumeration.category ↔ ∃ t ∈ tokens, t.path.head? = some key
  order : enums.Pairwise fun e e' =>
    (tokens.map fun t => t.path.head?).idxOf (some e.category)
      < (tokens.map fun t => t.path.head?).idxOf (some e'.category)
  members : ∀ e ∈ enums, e.members = tokens.filter fun t => t.path.head? == some e.category
  perm : (enums.flatMap Enumeration.members).Perm tokens
  declarations : ∀ e ∈ enums, List.Forall₂ Declares e.members e.declarations

section Files

variable {tokens : List Token} {enums : List Enumeration}

/-- A token with a path has its first key for a category. -/
lemma head?_path {t : Token} (h : t.path ≠ []) : t.path.head? = some t.category := by
  obtain ⟨key, rest, hpath⟩ := List.exists_cons_of_ne_nil h
  rw [Token.category, hpath]
  rfl

section Paths

variable (hpaths : ∀ t ∈ tokens, t.path ≠ [])

include hpaths

lemma group_eq (category : String) : (group tokens category).2
    = tokens.filter fun t => t.path.head? == some category :=
  List.filter_congr fun t ht => by
    rw [head?_path (hpaths t ht)]
    rfl

/-- Where a first key first appears is where its category does. -/
lemma idxOf_head? (key : String) : (tokens.map fun t => t.path.head?).idxOf (some key)
    = (tokens.map Token.category).idxOf key := by
  have hkeys : tokens.map (fun t => t.path.head?) = (tokens.map Token.category).map some := by
    rw [List.map_map]
    exact List.map_congr_left fun t ht => head?_path (hpaths t ht)
  rw [hkeys, List.idxOf, List.findIdx_map]
  rfl

/-- The first keys of tokens are their categories. -/
lemma mem_categories_iff (key : String) :
    key ∈ (tokens.map Token.category).eraseDups ↔ ∃ t ∈ tokens, t.path.head? = some key := by
  rw [List.mem_eraseDups, List.mem_map]
  exact exists_congr fun t => and_congr_right fun ht => by
    rw [head?_path (hpaths t ht), Option.some.injEq]

/-- The enumerations of tokens are a partition. -/
lemma isPartition_of_enumerations (h : enumerations tokens = .ok enums) :
    IsPartition tokens enums := by
  obtain ⟨hgroups, hdeclarations⟩ := spec_of_enumerations h
  have hcategories := categories_of_enumerations h
  constructor
  case category =>
    intro key
    rw [hcategories, mem_categories_iff hpaths]
  case order =>
    have horder := pairwise_idxOf_eraseDups (tokens.map Token.category)
    rw [← hcategories, List.pairwise_map] at horder
    simp only [idxOf_head? hpaths]
    exact horder
  case members =>
    intro e he
    have hgroup : (e.category, e.members) ∈ byCategory tokens := by
      rw [← hgroups]
      exact List.mem_map_of_mem he
    rw [byCategory_eq_map] at hgroup
    obtain ⟨category, -, hgroup⟩ := List.mem_map.mp hgroup
    obtain ⟨rfl, hmembers⟩ := Prod.mk.inj hgroup
    rw [← hmembers]
    exact group_eq hpaths e.category
  case perm =>
    exact perm_of_enumerations h
  case declarations =>
    exact fun e he => (hdeclarations e he).imp fun _ _ => swiftDeclaration_eq_ok_iff.mp

/-- In a partition, the categories stand in the order in which they first appear. -/
lemma IsPartition.categories_eq (h : IsPartition tokens enums) :
    enums.map Enumeration.category = (tokens.map Token.category).eraseDups := by
  let earlier (a b : String) : Prop :=
    (tokens.map Token.category).idxOf a < (tokens.map Token.category).idxOf b
  have hirrefl : Std.Irrefl earlier := ⟨fun _ => Nat.lt_irrefl _⟩
  have hantisymm : Std.Antisymm earlier := ⟨fun _ _ hab hba => absurd hab (Nat.lt_asymm hba)⟩
  have horder : (enums.map Enumeration.category).Pairwise earlier := by
    rw [List.pairwise_map]
    exact h.order.imp fun hlt => by rwa [idxOf_head? hpaths, idxOf_head? hpaths] at hlt
  refine horder.eq_of_mem_iff (pairwise_idxOf_eraseDups _) fun key => ?_
  rw [h.category, mem_categories_iff hpaths]

/-- **The enumerations of tokens are their partition**: there is no other one. -/
theorem enumerations_eq_ok_iff : enumerations tokens = .ok enums ↔ IsPartition tokens enums := by
  refine ⟨isPartition_of_enumerations hpaths, fun h => ?_⟩
  have hgroups : byCategory tokens = enums.map fun e => (e.category, e.members) := by
    rw [byCategory_eq_map, ← h.categories_eq hpaths, List.map_map]
    refine List.map_congr_left fun e he => ?_
    rw [h.members e he, ← group_eq hpaths e.category]
    rfl
  rw [enumerations, hgroups, mapM_eq_ok_iff, List.forall₂_map_left_iff, List.forall₂_same]
  exact fun e he => enumeration_eq_ok_iff.mpr
    ⟨rfl, (h.declarations e he).imp fun _ _ => swiftDeclaration_eq_ok_iff.mpr⟩

end Paths

/-- **The enumerations of a file are a stable partition of its tokens.** If all tokens have paths,
there is no file exactly if the value of some token that is tagged as a colour cannot be read as
one, and what is reported is then the failure of such a value. Otherwise the file is the text of
enumerations into which the tokens fall by their first keys, however tokens of different categories
follow each other, with a line for every token that declares it; and the text of any such
enumerations is the file. -/
theorem swift_partition {c : TokenList} (hpaths : ∀ t ∈ c.tokens, t.path ≠ []) (options : Fields)
    (now : Moment) :
    ((∃ e, OutputFormat.swift.content c options now = .error e) ↔
      ∃ t ∈ c.tokens, t.tag.isText "color" = true ∧ ∃ e, Color.read t.value = .error e) ∧
    (∀ e, OutputFormat.swift.content c options now = .error e →
      ∃ t ∈ c.tokens, t.tag.isText "color" = true ∧
        ∃ e', Color.read t.value = .error e' ∧ .color e' = e) ∧
    ∀ text, OutputFormat.swift.content c options now = .ok text ↔
      ∃ enums, IsPartition c.tokens enums ∧ text = swiftText options now enums := by
  have hcontent : OutputFormat.swift.content c options now
      = (enumerations c.tokens).map (swiftText options now) := swift_eq_map c options now
  have herror : ∀ e, OutputFormat.swift.content c options now = .error e →
      ∃ t ∈ c.tokens, t.tag.isText "color" = true ∧
        ∃ e', Color.read t.value = .error e' ∧ .color e' = e := by
    intro e h
    rw [hcontent] at h
    obtain ⟨t, ht, hdeclaration⟩ := exists_of_enumerations_eq_error (eq_error_of_map_eq_error h)
    exact ⟨t, ht, swiftDeclaration_eq_error_iff.mp hdeclaration⟩
  refine ⟨⟨?_, ?_⟩, herror, fun text => ⟨fun htext => ?_, ?_⟩⟩
  · rintro ⟨e, h⟩
    obtain ⟨t, ht, hcolor, e', hread, -⟩ := herror e h
    exact ⟨t, ht, hcolor, e', hread⟩
  · rintro ⟨t, ht, hcolor, e', hread⟩
    cases henums : enumerations c.tokens with
    | error e => exact ⟨e, by rw [hcontent, henums]; rfl⟩
    | ok enums =>
        obtain ⟨d, hd⟩ := exists_enumerations_iff.mp ⟨enums, henums⟩ t ht
        rw [swiftDeclaration_eq_error_iff.mpr ⟨hcolor, e', hread, rfl⟩] at hd
        cases hd
  · rw [hcontent] at htext
    obtain ⟨enums, henums, rfl⟩ := exists_of_map_eq_ok htext
    exact ⟨enums, (enumerations_eq_ok_iff hpaths).mp henums, rfl⟩
  · rintro ⟨enums, hpartition, rfl⟩
    rw [hcontent, (enumerations_eq_ok_iff hpaths).mpr hpartition]
    rfl

end Files

/-- A dark and a light ink. -/
def darkInk : Token :=
  { path := ["ink", "dark"], value := .str "#123", tag := .str "color", name := "inkDark" }

@[inherit_doc darkInk]
def lightInk : Token :=
  { path := ["ink", "light"], value := .str "#FEDCBA80", tag := .str "color", name := "inkLight" }

/-- A small and a wide gap. -/
def smallGap : Token := { path := ["gap", "small"], value := .int 4, name := "gapSmall" }

@[inherit_doc smallGap]
def wideGap : Token := { path := ["gap", "wide"], value := .str "2em", name := "gapWide" }

/-- Inks and gaps in turn. -/
def mixedTokens : TokenList := ⟨[darkInk, smallGap, lightInk, wideGap]⟩

/-- Inks and gaps apart, with their declarations. -/
def mixedEnumerations : List Enumeration :=
  [{ category := "ink"
     members := [darkInk, lightInk]
     declarations := ["public static let dark = SwiftUI.Color(hex: 0x112233)",
       "public static let light = SwiftUI.Color(hex: 0xFEDCBA, alpha: 0.50)"] },
   { category := "gap"
     members := [smallGap, wideGap]
     declarations := ["public static let small: CGFloat = 4",
       "public static let wide = \"2em\""] }]

example : byCategory mixedTokens.tokens
    = [("ink", [darkInk, lightInk]), ("gap", [smallGap, wideGap])] := rfl

/-- They are not apart in the list, but in the enumerations of the file. -/
theorem swift_partition_mixed :
    (∀ t ∈ mixedTokens.tokens, t.path ≠ []) ∧
      IsPartition mixedTokens.tokens mixedEnumerations ∧
      mixedEnumerations.flatMap Enumeration.lines =
        ["    public enum Ink \x7b",
          "        public static let dark = SwiftUI.Color(hex: 0x112233)",
          "        public static let light = SwiftUI.Color(hex: 0xFEDCBA, alpha: 0.50)",
          "    \x7d",
          "    public enum Gap \x7b",
          "        public static let small: CGFloat = 4",
          "        public static let wide = \"2em\"",
          "    \x7d"] ∧
      ∀ now, OutputFormat.swift.content mixedTokens [] now
        = .ok (swiftText [] now mixedEnumerations) := by
  have hpaths : ∀ t ∈ mixedTokens.tokens, t.path ≠ [] := by decide
  have hpartition : IsPartition mixedTokens.tokens mixedEnumerations :=
    (enumerations_eq_ok_iff hpaths).mp rfl
  refine ⟨hpaths, hpartition, rfl, fun now => ?_⟩
  obtain ⟨-, -, hfile⟩ := swift_partition hpaths [] now
  exact (hfile _).mpr ⟨mixedEnumerations, hpartition, rfl⟩

end Output

end StyleTokens
