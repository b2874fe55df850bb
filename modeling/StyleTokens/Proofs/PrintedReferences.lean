import StyleTokens.Output.Literal
import StyleTokens.Proofs.Remnant

/-!
References inside a text, and what files have for the values that they name.

* `Json.embedded_eq_bareText_iff`: a value is filled in as it is written, unless it is a boolean;
* `Reference.Printed`: a text in which every reference is replaced by what files have for the value
  that it names;
* `Reference.Filled.exists_printed`: a text with its references filled in is that text exactly if
  none of them names a boolean;
* `resolve_printed_iff`: the same for the strings of documents;
* `embedded_printed_iff`: what one reference adds to a string of a document.
  `embedded_flag_not_printed` has a boolean.
-/

namespace StyleTokens

/-! ### One value -/

namespace Json

/-- **A value is filled in as it is written exactly if it is no boolean.** -/
theorem embedded_eq_bareText_iff {v : Json} : v.embedded = v.bareText ↔ v.kind ≠ .bool := by
  cases v with
  | bool b => cases b <;> exact iff_of_false (by decide) (by simp [kind])
  | _ => exact iff_of_true rfl (by simp [kind])

/-- It is as long as what is written, in any case. -/
lemma length_embedded (v : Json) : v.embedded.toList.length = v.bareText.toList.length := by
  by_cases h : v.kind = .bool
  · cases v with
    | bool b => cases b <;> decide
    | _ => cases h
  · rw [embedded_eq_bareText_iff.mpr h]

end Json

/-! ### Texts -/

namespace Reference

/-- The second text is the first one with every reference replaced by what files have for the value that
it names. -/
inductive Printed (values : Values) : List Char → List Char → Prop where
  | free {cs : List Char} : Free cs → Printed values cs cs
  | reference {before after front back name : List Char} {v : Json} :
      Printed values before front → IsName name → values.named (String.ofList name) = some v →
        Printed values after back →
          Printed values (before ++ braced name ++ after) (front ++ v.bareText.toList ++ back)

/-- Is there no reference in the text that names a boolean? -/
def NamesNoBoolean (values : Values) (cs : List Char) : Prop :=
  ∀ name, .reference name ∈ pieces cs → ∀ v, values.named (String.ofList name) = some v →
    v.kind ≠ .bool

section Texts

variable {values : Values} {cs out before after name : List Char} {v : Json}

/-- A text with a reference is filled in before it, there and behind it. -/
lemma Filled.exists_of_braced (h : Filled values (before ++ braced name ++ after) out)
    (hname : IsName name) (hv : values.named (String.ofList name) = some v) :
    ∃ front back, Filled values before front ∧ Filled values after back ∧
      out = front ++ v.embedded.toList ++ back := by
  have hpieces := h.replaceInPieces_eq
  rw [pieces_braced hname, replaceInPieces_append, replaceInPieces, hv] at hpieces
  obtain ⟨front, hfront, hpieces⟩ := Option.bind_eq_some_iff.mp hpieces
  obtain ⟨rest, hrest, rfl⟩ := Option.map_eq_some_iff.mp hpieces
  obtain ⟨back, hback, rfl⟩ : ∃ back, replaceInPieces values.named (pieces after) = some back ∧
      v.embedded.toList ++ back = rest := by
    simpa [Option.bind_eq_some_iff] using hrest
  exact ⟨front, back, filled_of_replaceInPieces hfront, filled_of_replaceInPieces hback,
    (List.append_assoc ..).symm⟩

/-- A text with a reference names a boolean there, or before it, or behind it. -/
lemma namesNoBoolean_braced_iff (hname : IsName name)
    (hv : values.named (String.ofList name) = some v) :
    NamesNoBoolean values (before ++ braced name ++ after) ↔
      NamesNoBoolean values before ∧ v.kind ≠ .bool ∧ NamesNoBoolean values after := by
  have hown : (∀ w, values.named (String.ofList name) = some w → w.kind ≠ .bool) ↔ v.kind ≠ .bool := by
    simp [hv]
  simp only [NamesNoBoolean, pieces_braced hname, List.mem_append, List.mem_cons,
    Piece.reference.injEq, or_imp, forall_and, forall_eq, hown]

/-- **Filling in the references of a text prints them exactly if none of them names a boolean.** The
texts are equally long, so they differ wherever a boolean is filled in. -/
theorem Filled.exists_printed (h : Filled values cs out) :
    ∃ printed, Printed values cs printed ∧ out.length = printed.length ∧
      (out = printed ↔ NamesNoBoolean values cs) := by
  induction h with
  | @free cs hfree =>
      refine ⟨cs, .free hfree, rfl, iff_of_true rfl ?_⟩
      rw [NamesNoBoolean, free_iff_pieces.mp hfree]
      intro name hname
      exact absurd hname (by simp [chars])
  | @reference before after front back name v _ hname hv _ ih ih' =>
      obtain ⟨front', hfront, hlength, hiff⟩ := ih
      obtain ⟨back', hback, hlength', hiff'⟩ := ih'
      have hembedded := v.length_embedded
      refine ⟨_, .reference hfront hname hv hback, ?_, ?_⟩
      · simp only [List.length_append, hlength, hlength', hembedded]
      · rw [namesNoBoolean_braced_iff hname hv, ← hiff, ← hiff', ← Json.embedded_eq_bareText_iff,
          List.append_assoc, List.append_assoc]
        constructor
        · intro heq
          obtain ⟨hfirst, hrest⟩ := List.append_inj heq hlength
          obtain ⟨hvalue, hlast⟩ := List.append_inj hrest hembedded
          exact ⟨hfirst, String.toList_inj.mp hvalue, hlast⟩
        · rintro ⟨rfl, hvalue, rfl⟩
          rw [hvalue]

end Texts

end Reference

open Reference

/-! ### Documents -/

/-- In a string, the references that name a boolean are those of the value. -/
lemma namesNoBoolean_iff {values : Values} {s : String} : NamesNoBoolean values s.toList ↔
    ∀ r ∈ (Json.str s).references, ∀ v, values (target r) = some v → v.kind ≠ .bool := by
  constructor
  · intro h r hr v hv
    obtain ⟨name, hname, rfl⟩ := mem_references_str.mp hr
    rw [target_stripped] at hv
    exact h name hname v hv
  · intro h name hname v hv
    refine h _ (mem_references_str.mpr ⟨name, hname, rfl⟩) v ?_
    rwa [target_stripped]

section Resolved

variable {docs : List Document} {c : TokenList} {t : Token} {s : String}

/-- A string that is not one reference is resolved to the string with its references filled in. -/
lemma exists_filled (h : resolve docs = .ok c) (ht : t ∈ c.tokens) (hs : t.declared = .str s)
    (hwhole : ∀ name, ¬ IsWhole s name) :
    ∃ out, Filled c.values s.toList out ∧ t.value = .str (String.ofList out) := by
  obtain ⟨d, hd, hdeclared, hvalue⟩ := definition_of_mem_resolve h ht
  obtain ⟨v, hv, hsub⟩ := (solves_values h).exists_value hd
  obtain rfl : t.value = v := Option.some.inj (hvalue.symm.trans (path_of_lastDefinition hd ▸ hv))
  rw [← hdeclared, hs] at hsub
  generalize t.value = w at hsub
  cases hsub with
  | str htext =>
      cases htext with
      | whole hname _ => exact absurd hname (hwhole _)
      | @text out _ hfilled => exact ⟨out, hfilled, rfl⟩

/-- **A resolved string is the printed one exactly if its references name no booleans.** A string that
is not one reference becomes the string with every reference replaced by what files have for the token
that it names, exactly if none of these tokens has a boolean. -/
theorem resolve_printed_iff (h : resolve docs = .ok c) (ht : t ∈ c.tokens) (hs : t.declared = .str s)
    (hwhole : ∀ name, ¬ IsWhole s name) :
    ∃ printed, Printed c.values s.toList printed ∧
      (t.value = .str (String.ofList printed) ↔
        ∀ r ∈ t.declared.references, ∀ v, c.values (target r) = some v → v.kind ≠ .bool) := by
  obtain ⟨out, hfilled, hvalue⟩ := exists_filled h ht hs hwhole
  obtain ⟨printed, hprinted, -, hiff⟩ := hfilled.exists_printed
  refine ⟨printed, hprinted, ?_⟩
  rw [hvalue, hs, ← namesNoBoolean_iff, ← hiff, Json.str.injEq, String.ofList_inj]

end Resolved

/-- **An embedded reference prints what its token prints, unless that is a boolean.** The text that a
value is filled in with is the one that it is written with exactly if it is no boolean. It is this text
that a reference to the value adds to a string of a document that holds more than the reference: what
stands before it and what stands behind it have their own references filled in. -/
theorem embedded_printed_iff (v : Json) :
    (v.embedded = v.bareText ↔ v.kind ≠ .bool) ∧
    ∀ docs c, resolve docs = .ok c → ∀ t ∈ c.tokens, ∀ s, t.declared = .str s →
      (∀ name, ¬ IsWhole s name) → ∀ before name after,
        s.toList = before ++ braced name ++ after → IsName name →
          c.values (target (String.ofList name)) = some v →
            ∃ front back, Filled c.values before front ∧ Filled c.values after back ∧
              t.value = .str (String.ofList (front ++ v.embedded.toList ++ back)) := by
  refine ⟨Json.embedded_eq_bareText_iff, ?_⟩
  intro docs c h t ht s hs hwhole before name after htext hname hv
  obtain ⟨out, hfilled, hvalue⟩ := exists_filled h ht hs hwhole
  rw [htext] at hfilled
  obtain ⟨front, back, hfront, hback, rfl⟩ := hfilled.exists_of_braced hname hv
  exact ⟨front, back, hfront, hback, hvalue⟩

/-- An edge that names a width. -/
def plainEdge : Document :=
  ⟨"edges", [
    ("width", .obj [("value", .int 2)]),
    ("edge", .obj [("value", .str "\x7bwidth\x7dpx solid")])]⟩

/-- The width is filled in as it is printed. -/
theorem embedded_printed_edge :
    ∃ c, resolve [plainEdge] = .ok c ∧ ∃ t ∈ c.tokens, t.declared = .str "\x7bwidth\x7dpx solid" ∧
      (∀ name, ¬ IsWhole "\x7bwidth\x7dpx solid" name) ∧
      IsName "width".toList ∧ c.values (target "width") = some (.int 2) ∧
      ∃ front back, Filled c.values [] front ∧ Filled c.values "px solid".toList back ∧
        t.value = .str (String.ofList (front ++ (Json.int 2).bareText.toList ++ back)) := by
  obtain ⟨c, hc, hwidth, t, ht, hdeclared⟩ : ∃ c, resolve [plainEdge] = .ok c ∧
      c.values (target "width") = some (.int 2) ∧
      ∃ t ∈ c.tokens, t.declared = .str "\x7bwidth\x7dpx solid" :=
    ⟨_, rfl, rfl, _, .tail _ (.head _), rfl⟩
  have hwhole : ∀ name, ¬ IsWhole "\x7bwidth\x7dpx solid" name := by
    have hnone : whole? "\x7bwidth\x7dpx solid".toList = none := by decide
    intro name hname
    rw [isWhole_iff, hnone] at hname
    cases hname
  have hname : IsName "width".toList := by decide
  obtain ⟨hprinted, hresolved⟩ := embedded_printed_iff (.int 2)
  obtain ⟨front, back, hfront, hback, hvalue⟩ := hresolved _ c hc t ht _ hdeclared hwhole []
    "width".toList "px solid".toList (by decide) hname hwidth
  rw [hprinted.mpr (by decide)] at hvalue
  exact ⟨c, hc, t, ht, hdeclared, hwhole, hname, hwidth, front, back, hfront, hback, hvalue⟩

/-- A flag, and a text that names it. -/
def flaggedNote : Document :=
  ⟨"flags", [
    ("flag", .obj [("value", .bool true)]),
    ("note", .obj [("value", .str "is \x7bflag\x7d")])]⟩

/-- The flag is filled in with a capital letter, and written without one. -/
theorem embedded_flag_not_printed :
    (∃ v : Json, v.embedded ≠ v.bareText) ∧
      ∃ c, resolve [flaggedNote] = .ok c ∧
        c.tokens.map (fun t => t.value.bareText) = ["true", "is True"] :=
  ⟨⟨.bool true, by decide⟩, _, rfl, rfl⟩

end StyleTokens
