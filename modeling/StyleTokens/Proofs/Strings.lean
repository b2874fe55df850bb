import Mathlib.Tactic.Common
import StyleTokens.Token.Reference

/-!
The strings inside a value.

* `Json.strings`: the strings of a value in order, its keys apart;
* `Json.Rewritten`: a value with its strings rewritten, element by element: lists and objects keep
  their length, their order and their keys, and whatever is no string stays;
* `Rewritten.imp`, `Rewritten.unique`: what holds of the rewriting of every string holds of the
  value;
* `Rewritten.exists_of_mem`, `Rewritten.exists_source`: the strings of a rewritten value are those
  of what its strings became;
* `references_eq_flatMap`: the references of a value are those of its strings.
-/

namespace StyleTokens.Json

mutual

/-- The strings of a value in order, its keys apart. -/
def strings : Json → List String
  | .str s => [s]
  | .arr items => stringsOfItems items
  | .obj fields => stringsOfFields fields
  | _ => []

/-- The strings of the items of a list. -/
def stringsOfItems : List Json → List String
  | [] => []
  | x :: xs => strings x ++ stringsOfItems xs

/-- The strings of the values of an object. -/
def stringsOfFields : List (String × Json) → List String
  | [] => []
  | (_, x) :: xs => strings x ++ stringsOfFields xs

end

/-! ### Rewritten values -/

mutual

/-- A value and what it becomes when its strings are rewritten as the relation says. -/
inductive Rewritten (R : String → Json → Prop) : Json → Json → Prop where
  | null : Rewritten R .null .null
  | bool (b : Bool) : Rewritten R (.bool b) (.bool b)
  | int (n : Int) : Rewritten R (.int n) (.int n)
  | float (x : Binary64) : Rewritten R (.float x) (.float x)
  | str {s : String} {w : Json} : R s w → Rewritten R (.str s) w
  | arr {xs ys : List Json} : RewrittenItems R xs ys → Rewritten R (.arr xs) (.arr ys)
  | obj {xs ys : List (String × Json)} : RewrittenFields R xs ys → Rewritten R (.obj xs) (.obj ys)

/-- The items of a list, rewritten one by one. -/
inductive RewrittenItems (R : String → Json → Prop) : List Json → List Json → Prop where
  | nil : RewrittenItems R [] []
  | cons {x y : Json} {xs ys : List Json} :
      Rewritten R x y → RewrittenItems R xs ys → RewrittenItems R (x :: xs) (y :: ys)

/-- The entries of an object, rewritten one by one under the same keys. -/
inductive RewrittenFields (R : String → Json → Prop) :
    List (String × Json) → List (String × Json) → Prop where
  | nil : RewrittenFields R [] []
  | cons {x y : Json} {xs ys : List (String × Json)} (key : String) :
      Rewritten R x y → RewrittenFields R xs ys →
        RewrittenFields R ((key, x) :: xs) ((key, y) :: ys)

end

section Rewriting

variable {R S : String → Json → Prop}

mutual

/-- A rule that allows at least as much for every string of a value allows what was done to it. -/
theorem Rewritten.imp {v w : Json} (h : ∀ s ∈ v.strings, ∀ u, R s u → S s u) :
    Rewritten R v w → Rewritten S v w
  | .null => .null
  | .bool b => .bool b
  | .int n => .int n
  | .float x => .float x
  | .str hs => .str (h _ (by simp [strings]) _ hs)
  | .arr hs => .arr (RewrittenItems.imp (by simpa only [strings] using h) hs)
  | .obj hs => .obj (RewrittenFields.imp (by simpa only [strings] using h) hs)

/-- The same for the items of a list. -/
theorem RewrittenItems.imp {xs ys : List Json}
    (h : ∀ s ∈ stringsOfItems xs, ∀ u, R s u → S s u) :
    RewrittenItems R xs ys → RewrittenItems S xs ys
  | .nil => .nil
  | .cons hx hxs =>
      .cons (hx.imp fun s hs => h s (by simp [stringsOfItems, hs]))
        (hxs.imp fun s hs => h s (by simp [stringsOfItems, hs]))

/-- The same for the entries of an object. -/
theorem RewrittenFields.imp {xs ys : List (String × Json)}
    (h : ∀ s ∈ stringsOfFields xs, ∀ u, R s u → S s u) :
    RewrittenFields R xs ys → RewrittenFields S xs ys
  | .nil => .nil
  | .cons key hx hxs =>
      .cons key (hx.imp fun s hs => h s (by simp [stringsOfFields, hs]))
        (hxs.imp fun s hs => h s (by simp [stringsOfFields, hs]))

end

mutual

/-- If every string of a value becomes one thing only, so does the value. -/
theorem Rewritten.unique {v w w' : Json}
    (h : ∀ s ∈ v.strings, ∀ u u', R s u → S s u' → u = u') :
    Rewritten R v w → Rewritten S v w' → w = w'
  | .null, .null => rfl
  | .bool _, .bool _ => rfl
  | .int _, .int _ => rfl
  | .float _, .float _ => rfl
  | .str hs, .str hs' => h _ (by simp [strings]) _ _ hs hs'
  | .arr hs, .arr hs' => by
      rw [RewrittenItems.unique (by simpa only [strings] using h) hs hs']
  | .obj hs, .obj hs' => by
      rw [RewrittenFields.unique (by simpa only [strings] using h) hs hs']

/-- The same for the items of a list. -/
theorem RewrittenItems.unique {xs ys ys' : List Json}
    (h : ∀ s ∈ stringsOfItems xs, ∀ u u', R s u → S s u' → u = u') :
    RewrittenItems R xs ys → RewrittenItems S xs ys' → ys = ys'
  | .nil, .nil => rfl
  | .cons hx hxs, .cons hx' hxs' => by
      rw [hx.unique (fun s hs => h s (by simp [stringsOfItems, hs])) hx',
        hxs.unique (fun s hs => h s (by simp [stringsOfItems, hs])) hxs']

/-- The same for the entries of an object. -/
theorem RewrittenFields.unique {xs ys ys' : List (String × Json)}
    (h : ∀ s ∈ stringsOfFields xs, ∀ u u', R s u → S s u' → u = u') :
    RewrittenFields R xs ys → RewrittenFields S xs ys' → ys = ys'
  | .nil, .nil => rfl
  | .cons key hx hxs, .cons _ hx' hxs' => by
      rw [hx.unique (fun s hs => h s (by simp [stringsOfFields, hs])) hx',
        hxs.unique (fun s hs => h s (by simp [stringsOfFields, hs])) hxs']

end

mutual

/-- The strings of a rewritten value are those of what the strings became, in order. -/
theorem Rewritten.exists_pairs {v w : Json} :
    Rewritten R v w → ∃ pairs : List (String × Json), pairs.map Prod.fst = v.strings ∧
      (pairs.flatMap fun e => e.2.strings) = w.strings ∧ ∀ e ∈ pairs, R e.1 e.2
  | .null => ⟨[], rfl, rfl, by simp⟩
  | .bool _ => ⟨[], rfl, rfl, by simp⟩
  | .int _ => ⟨[], rfl, rfl, by simp⟩
  | .float _ => ⟨[], rfl, rfl, by simp⟩
  | @Rewritten.str _ s w h => ⟨[(s, w)], by simp [strings], by simp, by simpa using h⟩
  | .arr h => by
      simp only [strings]
      exact h.exists_pairs
  | .obj h => by
      simp only [strings]
      exact h.exists_pairs

/-- The same for the items of a list. -/
theorem RewrittenItems.exists_pairs {xs ys : List Json} :
    RewrittenItems R xs ys → ∃ pairs : List (String × Json), pairs.map Prod.fst = stringsOfItems xs ∧
      (pairs.flatMap fun e => e.2.strings) = stringsOfItems ys ∧ ∀ e ∈ pairs, R e.1 e.2
  | .nil => ⟨[], rfl, rfl, by simp⟩
  | .cons hx hxs => by
      obtain ⟨ps, h1, h2, h3⟩ := hx.exists_pairs
      obtain ⟨qs, h4, h5, h6⟩ := hxs.exists_pairs
      refine ⟨ps ++ qs, by simp [stringsOfItems, h1, h4], by simp [stringsOfItems, h2, h5], ?_⟩
      intro e he
      exact (List.mem_append.mp he).elim (h3 e) (h6 e)

/-- The same for the entries of an object. -/
theorem RewrittenFields.exists_pairs {xs ys : List (String × Json)} :
    RewrittenFields R xs ys →
      ∃ pairs : List (String × Json), pairs.map Prod.fst = stringsOfFields xs ∧
        (pairs.flatMap fun e => e.2.strings) = stringsOfFields ys ∧ ∀ e ∈ pairs, R e.1 e.2
  | .nil => ⟨[], rfl, rfl, by simp⟩
  | .cons _ hx hxs => by
      obtain ⟨ps, h1, h2, h3⟩ := hx.exists_pairs
      obtain ⟨qs, h4, h5, h6⟩ := hxs.exists_pairs
      refine ⟨ps ++ qs, by simp [stringsOfFields, h1, h4], by simp [stringsOfFields, h2, h5], ?_⟩
      intro e he
      exact (List.mem_append.mp he).elim (h3 e) (h6 e)

end

/-- What a string of a value became is a part of the rewritten value. -/
lemma Rewritten.exists_of_mem {v w : Json} (h : Rewritten R v w) {s : String}
    (hs : s ∈ v.strings) : ∃ u, R s u ∧ ∀ t ∈ u.strings, t ∈ w.strings := by
  obtain ⟨pairs, hv, hw, hR⟩ := h.exists_pairs
  rw [← hv] at hs
  obtain ⟨e, he, rfl⟩ := List.mem_map.mp hs
  refine ⟨e.2, hR e he, fun t ht => ?_⟩
  rw [← hw]
  exact List.mem_flatMap.mpr ⟨e, he, ht⟩

/-- Every string of a rewritten value comes from what a string became. -/
lemma Rewritten.exists_source {v w : Json} (h : Rewritten R v w) {t : String}
    (ht : t ∈ w.strings) : ∃ s ∈ v.strings, ∃ u, R s u ∧ t ∈ u.strings := by
  obtain ⟨pairs, hv, hw, hR⟩ := h.exists_pairs
  rw [← hw] at ht
  obtain ⟨e, he, ht⟩ := List.mem_flatMap.mp ht
  refine ⟨e.1, ?_, e.2, hR e he, ht⟩
  rw [← hv]
  exact List.mem_map.mpr ⟨e, he, rfl⟩

end Rewriting

/-! ### References and strings -/

mutual

/-- **The references of a value are those of its strings.** -/
theorem references_eq_flatMap : ∀ v : Json,
    v.references = v.strings.flatMap fun s => (Json.str s).references
  | .null => rfl
  | .bool _ => rfl
  | .int _ => rfl
  | .float _ => rfl
  | .str s => by simp [strings]
  | .arr items => by
      rw [references, strings, referencesOfItems_eq_flatMap items]
  | .obj fields => by
      rw [references, strings, referencesOfFields_eq_flatMap fields]

/-- The same for the items of a list. -/
theorem referencesOfItems_eq_flatMap : ∀ xs : List Json,
    referencesOfItems xs = (stringsOfItems xs).flatMap fun s => (Json.str s).references
  | [] => rfl
  | x :: xs => by
      rw [referencesOfItems, stringsOfItems, List.flatMap_append, references_eq_flatMap x,
        referencesOfItems_eq_flatMap xs]

/-- The same for the entries of an object. -/
theorem referencesOfFields_eq_flatMap : ∀ xs : List (String × Json),
    referencesOfFields xs = (stringsOfFields xs).flatMap fun s => (Json.str s).references
  | [] => rfl
  | (_, x) :: xs => by
      rw [referencesOfFields, stringsOfFields, List.flatMap_append, references_eq_flatMap x,
        referencesOfFields_eq_flatMap xs]

end

lemma mem_references {v : Json} {r : String} :
    r ∈ v.references ↔ ∃ s ∈ v.strings, r ∈ (Json.str s).references := by
  rw [references_eq_flatMap, List.mem_flatMap]

end StyleTokens.Json
