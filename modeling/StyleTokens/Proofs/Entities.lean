import Mathlib.Tactic.Common
import StyleTokens.Output.Markup

/-!
Text with entities, decoded.

* `Output.decode?`: the text that a text with entities stands for, if every ampersand begins one;
* `Output.WritesEntities`: what is written for a character is the character or an entity for it;
* `Output.decode?_flatMap`: a text that is written in such a way is decoded to what it was;
* `Output.onlyEntities_of_decode?`: where a text is decoded, every ampersand begins an entity;
* `Output.writesEntities_xmlChar`, `Output.writesEntities_xmlAttributeChar`,
  `Output.writesEntities_xmlMarkedChar`: the ways in which text and attributes are written;
* `Output.exists_xmlAttribute`: the value of an attribute is what stands between its marks;
* `Output.xmlText_eq_replaced`, `Output.xmlAttribute_eq_replaced`: both are written by replacing one
  character after the other.
-/

namespace StyleTokens.Output

/-- Entities, as what stands behind the ampersand, with the characters that they stand for. -/
abbrev Entities : Type := List (List Char × Char)

/-- The entities of texts between tags. -/
def textEntities : Entities := [("amp;".toList, '&'), ("lt;".toList, '<'), ("gt;".toList, '>')]

/-- The entities of attributes: further ones for a mark and for white space. -/
def attributeEntities : Entities :=
  textEntities ++ [("quot;".toList, '"'), ("#9;".toList, '\t'), ("#10;".toList, '\n'),
    ("#13;".toList, '\r')]

/-- The entity at the front of what follows an ampersand. -/
def Entities.front? (entities : Entities) (cs : List Char) : Option (List Char × Char) :=
  entities.find? fun e => e.1.isPrefixOf cs

/-- The text that a text stands for behind some characters that are passed over. -/
def decodeFrom (entities : Entities) : Nat → List Char → Option (List Char)
  | _, [] => some []
  | n + 1, _ :: cs => decodeFrom entities n cs
  | 0, c :: cs =>
    if c = '&' then
      match entities.front? cs with
      | some (name, d) => (decodeFrom entities name.length cs).map (d :: ·)
      | none => none
    else (decodeFrom entities 0 cs).map (c :: ·)

/-- The text that a text with entities stands for. There is none if an ampersand begins no entity. -/
def decode? (entities : Entities) (cs : List Char) : Option (List Char) := decodeFrom entities 0 cs

/-! ### Decoding -/

section Decoding

variable {entities : Entities}

lemma decodeFrom_length (name rest : List Char) :
    decodeFrom entities name.length (name ++ rest) = decode? entities rest := by
  induction name with
  | nil => rfl
  | cons c name ih => exact ih

/-- An entity is decoded to its character. -/
lemma decode?_entity {name rest : List Char} {c : Char}
    (h : entities.front? (name ++ rest) = some (name, c)) :
    decode? entities ('&' :: (name ++ rest)) = (decode? entities rest).map (c :: ·) := by
  rw [decode?, decodeFrom, if_pos rfl, h]
  dsimp only
  rw [decodeFrom_length]

lemma decode?_cons {c : Char} (h : c ≠ '&') (cs : List Char) :
    decode? entities (c :: cs) = (decode? entities cs).map (c :: ·) := by
  rw [decode?, decodeFrom, if_neg h]
  rfl

/-- Characters are written as they are, other than ampersands, or as entities that stand for them. -/
def WritesEntities (entities : Entities) (image : Char → List Char) : Prop :=
  ∀ c, image c = [c] ∧ c ≠ '&' ∨
    ∃ name, image c = '&' :: name ∧ ∀ rest, entities.front? (name ++ rest) = some (name, c)

/-- **Text that is written with entities is decoded to what it was**, whatever it looks like. -/
theorem decode?_flatMap {image : Char → List Char} (h : WritesEntities entities image)
    (cs : List Char) : decode? entities (cs.flatMap image) = some cs := by
  induction cs with
  | nil => rfl
  | cons c cs ih =>
      rw [List.flatMap_cons]
      rcases h c with ⟨himage, hc⟩ | ⟨name, himage, hfront⟩
      · rw [himage, List.singleton_append, decode?_cons hc, ih]
        rfl
      · rw [himage, List.cons_append, decode?_entity (hfront _), ih]
        rfl

/-- Every ampersand in the text begins an entity. -/
def OnlyEntities (entities : Entities) (cs : List Char) : Prop :=
  ∀ before after, cs = before ++ '&' :: after → ∃ e ∈ entities, e.1 <+: after

/-- The entity at the front is one of the table. -/
lemma spec_of_front? {cs name : List Char} {d : Char} (h : entities.front? cs = some (name, d)) :
    (name, d) ∈ entities ∧ name <+: cs := by
  have hprefix : name.isPrefixOf cs = true :=
    List.find?_some (p := fun e : List Char × Char => e.1.isPrefixOf cs) h
  exact ⟨List.mem_of_find?_eq_some h, List.isPrefixOf_iff_prefix.mp hprefix⟩

/-- Every ampersand begins an entity if there is none in what is passed over. -/
lemma onlyEntities_of_decodeFrom (hnames : ∀ e ∈ entities, '&' ∉ e.1) {cs ds : List Char} {n : Nat}
    (hfree : '&' ∉ cs.take n) (h : decodeFrom entities n cs = some ds) :
    OnlyEntities entities cs := by
  induction cs generalizing n ds with
  | nil =>
      intro before after htext
      exact absurd htext (by simp)
  | cons c cs ih =>
      -- what stands before an ampersand that is not at the front begins with the first character
      have hlater : ∀ {m es}, '&' ∉ cs.take m → decodeFrom entities m cs = some es →
          ∀ before after, before ≠ [] → c :: cs = before ++ '&' :: after →
            ∃ e ∈ entities, e.1 <+: after := by
        intro m es hfree hdecode before after hne htext
        obtain ⟨b, before, rfl⟩ := List.exists_cons_of_ne_nil hne
        exact ih hfree hdecode before after (List.cons.inj htext).2
      intro before after htext
      by_cases hbefore : before = []
      · subst hbefore
        obtain ⟨rfl, rfl⟩ := List.cons.inj htext
        cases n with
        | succ n => exact absurd (List.mem_cons_self ..) hfree
        | zero =>
            rw [decodeFrom, if_pos rfl] at h
            split at h
            · next name d hfront => exact ⟨_, spec_of_front? hfront⟩
            · cases h
      · cases n with
        | succ n =>
            rw [List.take_succ_cons, List.mem_cons, not_or] at hfree
            exact hlater hfree.2 h before after hbefore htext
        | zero =>
            rw [decodeFrom] at h
            split at h
            · split at h
              · next name d hfront =>
                  obtain ⟨hmem, hname⟩ := spec_of_front? hfront
                  obtain ⟨es, hes, -⟩ := Option.map_eq_some_iff.mp h
                  rw [List.prefix_iff_eq_take] at hname
                  exact hlater (hname ▸ hnames _ hmem) hes before after hbefore htext
              · cases h
            · obtain ⟨es, hes, -⟩ := Option.map_eq_some_iff.mp h
              exact hlater (by simp) hes before after hbefore htext

/-- **Where a text is decoded, every ampersand begins an entity.** -/
theorem onlyEntities_of_decode? (hnames : ∀ e ∈ entities, '&' ∉ e.1) {cs ds : List Char}
    (h : decode? entities cs = some ds) : OnlyEntities entities cs :=
  onlyEntities_of_decodeFrom hnames (by simp) h

end Decoding

/-! ### Text between tags and in attributes -/

lemma writesEntities_xmlChar : WritesEntities textEntities xmlChar := by
  intro c
  rw [xmlChar]
  split
  · next h => exact .inr ⟨_, rfl, fun _ => h ▸ rfl⟩
  split
  · next h => exact .inr ⟨_, rfl, fun _ => h ▸ rfl⟩
  split
  · next h => exact .inr ⟨_, rfl, fun _ => h ▸ rfl⟩
  · next h _ _ => exact .inl ⟨rfl, h⟩

/-- Attributes have the entities of text. -/
lemma WritesEntities.attribute {image : Char → List Char} (h : WritesEntities textEntities image) :
    WritesEntities attributeEntities image := by
  intro c
  refine (h c).imp_right fun ⟨name, himage, hfront⟩ => ⟨name, himage, fun rest => ?_⟩
  have hmore : ∀ more, Entities.front? (textEntities ++ more) (name ++ rest) = some (name, c) := by
    intro more
    rw [Entities.front?, List.find?_append, ← Entities.front?, hfront]
    rfl
  exact hmore _

lemma writesEntities_xmlAttributeChar : WritesEntities attributeEntities xmlAttributeChar := by
  intro c
  rw [xmlAttributeChar]
  split
  · next h => exact .inr ⟨_, rfl, fun _ => h ▸ rfl⟩
  split
  · next h => exact .inr ⟨_, rfl, fun _ => h ▸ rfl⟩
  split
  · next h => exact .inr ⟨_, rfl, fun _ => h ▸ rfl⟩
  · exact writesEntities_xmlChar.attribute c

lemma writesEntities_xmlMarkedChar : WritesEntities attributeEntities xmlMarkedChar := by
  intro c
  rw [xmlMarkedChar]
  split
  · next h => exact .inr ⟨_, rfl, fun _ => h ▸ rfl⟩
  · exact writesEntities_xmlAttributeChar c

/-- Text between tags holds no brackets. -/
lemma not_mem_xmlText (s : String) : '<' ∉ (xmlText s).toList ∧ '>' ∉ (xmlText s).toList := by
  have hchar : ∀ c, '<' ∉ xmlChar c ∧ '>' ∉ xmlChar c := by
    intro c
    rw [xmlChar]
    split
    · decide
    split
    · decide
    split
    · decide
    · next hmore hless =>
        simp only [List.mem_singleton]
        exact ⟨Ne.symm hless, Ne.symm hmore⟩
  simp only [xmlText, escapeWith, String.toList_ofList, List.mem_flatMap, not_exists, not_and]
  exact ⟨fun c _ => (hchar c).1, fun c _ => (hchar c).2⟩

section Attributes

variable {mark : Char} (hmark : mark = '"' ∨ mark = '\'')

include hmark

/-- Marks are written for marks alone. -/
lemma eq_of_mem_xmlAttributeChar {c : Char} (h : mark ∈ xmlAttributeChar c) : c = mark := by
  have hentity : ∀ name ∈ ["&#10;", "&#13;", "&#9;", "&amp;", "&gt;", "&lt;"],
      mark ∉ name.toList := by
    rcases hmark with rfl | rfl <;> decide
  rw [xmlAttributeChar, xmlChar] at h
  split at h
  · exact absurd h (hentity _ (by decide))
  split at h
  · exact absurd h (hentity _ (by decide))
  split at h
  · exact absurd h (hentity _ (by decide))
  split at h
  · exact absurd h (hentity _ (by decide))
  split at h
  · exact absurd h (hentity _ (by decide))
  split at h
  · exact absurd h (hentity _ (by decide))
  · exact (List.mem_singleton.mp h).symm

/-- A text without the mark has none when it is written. -/
lemma not_mem_escapeWith {s : String} (h : mark ∉ s.toList) :
    mark ∉ escapeWith xmlAttributeChar s := by
  rw [escapeWith, List.mem_flatMap]
  rintro ⟨c, hc, hmem⟩
  rw [eq_of_mem_xmlAttributeChar hmark hmem] at hc
  exact h hc

end Attributes

/-- No double mark is written inside double marks. -/
lemma not_mem_escapeWith_xmlMarkedChar (s : String) : '"' ∉ escapeWith xmlMarkedChar s := by
  rw [escapeWith, List.mem_flatMap]
  rintro ⟨c, -, hmem⟩
  rw [xmlMarkedChar] at hmem
  split at hmem
  · exact absurd hmem (by decide)
  · next hc => exact hc (eq_of_mem_xmlAttributeChar (.inl rfl) hmem)

/-- **The value of an attribute is what stands between its marks.** The mark at the front does not
stand inside, and what does is decoded to the text. -/
theorem exists_xmlAttribute (s : String) : ∃ mark inside, (mark = '"' ∨ mark = '\'') ∧
    (xmlAttribute s).toList = mark :: inside ++ [mark] ∧ mark ∉ inside ∧
      decode? attributeEntities inside = some s.toList := by
  have hplain : decode? attributeEntities (escapeWith xmlAttributeChar s) = some s.toList :=
    decode?_flatMap writesEntities_xmlAttributeChar s.toList
  have hmarked : decode? attributeEntities (escapeWith xmlMarkedChar s) = some s.toList :=
    decode?_flatMap writesEntities_xmlMarkedChar s.toList
  rw [xmlAttribute]
  split
  · next hdouble =>
      exact ⟨'"', _, .inl rfl, String.toList_ofList, not_mem_escapeWith (.inl rfl) hdouble, hplain⟩
  split
  · next hsingle =>
      exact ⟨'\'', _, .inr rfl, String.toList_ofList, not_mem_escapeWith (.inr rfl) hsingle, hplain⟩
  · exact ⟨'"', _, .inl rfl, String.toList_ofList, not_mem_escapeWith_xmlMarkedChar s, hmarked⟩

/-! ### Replacements -/

/-- A text in which a character is replaced wherever it stands. -/
def replaced (c : Char) (name : String) (cs : List Char) : List Char :=
  cs.flatMap fun d => if d = c then name.toList else [d]

/-- Replacing a character in a text is replacing it in what is written for each character. -/
lemma replaced_flatMap (c : Char) (name : String) (image : Char → List Char) (cs : List Char) :
    replaced c name (cs.flatMap image) = cs.flatMap fun d => replaced c name (image d) :=
  List.flatMap_assoc

lemma replaced_eq_self {c : Char} {cs : List Char} (h : c ∉ cs) (name : String) :
    replaced c name cs = cs := by
  induction cs with
  | nil => rfl
  | cons d cs ih =>
      rw [List.mem_cons, not_or] at h
      rw [replaced] at ih ⊢
      rw [List.flatMap_cons, if_neg (Ne.symm h.1), ih h.2, List.singleton_append]

lemma replaced_singleton_of_ne {c d : Char} (h : d ≠ c) (name : String) :
    replaced c name [d] = [d] :=
  replaced_eq_self (by simpa using Ne.symm h) name

/-- **Text is written by replacing one character after the other**, ampersands before all others. -/
theorem xmlText_eq_replaced (s : String) : (xmlText s).toList
    = replaced '<' "&lt;" (replaced '>' "&gt;" (replaced '&' "&amp;" s.toList)) := by
  have hchar : ∀ c, xmlChar c
      = replaced '<' "&lt;" (replaced '>' "&gt;" (if c = '&' then "&amp;".toList else [c])) := by
    intro c
    rw [xmlChar]
    by_cases hand : c = '&'
    · rw [if_pos hand, if_pos hand]
      rfl
    rw [if_neg hand, if_neg hand]
    by_cases hmore : c = '>'
    · rw [if_pos hmore, hmore]
      rfl
    rw [if_neg hmore, replaced_singleton_of_ne hmore]
    by_cases hless : c = '<'
    · rw [if_pos hless, hless]
      rfl
    · rw [if_neg hless, replaced_singleton_of_ne hless]
  have hand : replaced '&' "&amp;" s.toList
      = s.toList.flatMap fun c => if c = '&' then "&amp;".toList else [c] := rfl
  rw [xmlText, String.toList_ofList, hand, replaced_flatMap, replaced_flatMap, escapeWith,
    funext hchar]

/-- So are attributes, with white space after the brackets. -/
theorem escapeWith_xmlAttributeChar (s : String) : escapeWith xmlAttributeChar s
    = replaced '\t' "&#9;" (replaced '\r' "&#13;" (replaced '\n' "&#10;" (xmlText s).toList)) := by
  have hchar : ∀ c, xmlAttributeChar c
      = replaced '\t' "&#9;" (replaced '\r' "&#13;" (replaced '\n' "&#10;" (xmlChar c))) := by
    intro c
    rw [xmlAttributeChar]
    by_cases hfeed : c = '\n'
    · rw [if_pos hfeed, hfeed]
      rfl
    rw [if_neg hfeed]
    by_cases hreturn : c = '\r'
    · rw [if_pos hreturn, hreturn]
      rfl
    rw [if_neg hreturn]
    by_cases htab : c = '\t'
    · rw [if_pos htab, htab]
      rfl
    rw [if_neg htab, xmlChar]
    split
    · rfl
    split
    · rfl
    split
    · rfl
    · rw [replaced_singleton_of_ne hfeed, replaced_singleton_of_ne hreturn,
        replaced_singleton_of_ne htab]
  rw [xmlText, String.toList_ofList, escapeWith, escapeWith, replaced_flatMap, replaced_flatMap,
    replaced_flatMap, funext hchar]

/-- **The marks of an attribute are chosen for the written text**, and marks inside are replaced last. -/
theorem xmlAttribute_eq_replaced (s : String) {cs : List Char}
    (hcs : replaced '\t' "&#9;" (replaced '\r' "&#13;" (replaced '\n' "&#10;" (xmlText s).toList)) = cs) :
    (xmlAttribute s).toList =
      if '"' ∉ cs then '"' :: cs ++ ['"']
      else if '\'' ∉ cs then '\'' :: cs ++ ['\'']
      else '"' :: replaced '"' "&quot;" cs ++ ['"'] := by
  rw [← escapeWith_xmlAttributeChar] at hcs
  subst hcs
  have hmem : ∀ mark, mark = '"' ∨ mark = '\'' →
      (mark ∉ escapeWith xmlAttributeChar s ↔ mark ∉ s.toList) := by
    refine fun mark hmark => ⟨fun h hs => h ?_, not_mem_escapeWith hmark⟩
    have hself : mark ∈ xmlAttributeChar mark := by rcases hmark with rfl | rfl <;> decide
    exact List.mem_flatMap.mpr ⟨mark, hs, hself⟩
  have hchar : ∀ c, xmlMarkedChar c = replaced '"' "&quot;" (xmlAttributeChar c) := by
    intro c
    rw [xmlMarkedChar]
    split
    · next h =>
        rw [h]
        rfl
    · next h =>
        exact (replaced_eq_self (fun hmem => h (eq_of_mem_xmlAttributeChar (.inl rfl) hmem)) _).symm
  have hmarked : escapeWith xmlMarkedChar s
      = replaced '"' "&quot;" (escapeWith xmlAttributeChar s) := by
    rw [escapeWith, escapeWith, replaced_flatMap, funext hchar]
  rw [xmlAttribute, ← hmarked]
  simp only [hmem '"' (.inl rfl), hmem '\'' (.inr rfl)]
  split
  · exact String.toList_ofList
  split <;> exact String.toList_ofList

end StyleTokens.Output
