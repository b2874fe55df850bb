import StyleTokens.Proofs.Substitution

/-!
Computations that find values.

A look-up may find further values on its way. What it learns stays true, since the values found so
far are only added to, so the parts of a value can be replaced one after the other.

* `Memo.values`: the values found so far as what is known;
* `Resolving.Keeps`: a computation keeps an invariant of the values found so far, forgets none of
  them, gives a result that they justify, and fails only for a good reason;
* `keeps_traverseStrings`, `keeps_replaceReferences`: if the look-ups of the references of a value
  keep an invariant, so does replacing them, and the result is the one of the rule.
-/

namespace StyleTokens

open Reference

/-- The values found so far. -/
def Memo.values (memo : Memo) : Values := fun path => memo.lookup path

@[simp] lemma Memo.values_nil (path : Path) : Memo.values [] path = none := rfl

lemma Memo.values_cons (path : Path) (v : Json) (memo : Memo) (q : Path) :
    Memo.values ((path, v) :: memo) q = if q = path then some v else memo.values q := by
  by_cases h : q = path <;> simp [values, List.lookup_cons, h, beq_false_of_ne]

/-- A value for another path leaves what is known as it is. -/
lemma Memo.le_cons {memo : Memo} {path : Path} (h : memo.values path = none) (v : Json) :
    memo.values.Le (Memo.values ((path, v) :: memo)) := by
  intro q w hq
  have hne : q ≠ path := by
    rintro rfl
    rw [h] at hq
    exact absurd hq (by simp)
  rw [values_cons, if_neg hne, hq]

namespace Resolving

variable {α β : Type} {Inv : Memo → Prop} {Bad : ResolveError → Prop}

/-- Where the invariant holds, the computation keeps it, forgets no value and gives a result that
the values found so far justify; or it fails for one of the reasons. -/
def Keeps (Inv : Memo → Prop) (Bad : ResolveError → Prop) (x : Resolving α)
    (Good : Values → α → Prop) : Prop :=
  ∀ memo, Inv memo → match x.run memo with
    | .ok (a, memo') => Inv memo' ∧ memo.values.Le memo'.values ∧ Good memo'.values a
    | .error e => Bad e

/-- What the values found so far justify, more values justify too. -/
def Stable (Good : Values → α → Prop) : Prop := ∀ σ τ a, σ.Le τ → Good σ a → Good τ a

lemma keeps_pure {Good : Values → α → Prop} {a : α} (h : ∀ σ, Good σ a) :
    Keeps Inv Bad (pure a) Good :=
  fun _ hmemo => ⟨hmemo, .refl _, h _⟩

lemma Keeps.imp {Good Good' : Values → α → Prop} {x : Resolving α} (hx : Keeps Inv Bad x Good)
    (h : ∀ σ a, Good σ a → Good' σ a) : Keeps Inv Bad x Good' := by
  intro memo hmemo
  have hx := hx memo hmemo
  split at hx
  · exact ⟨hx.1, hx.2.1, h _ _ hx.2.2⟩
  · exact hx

/-- Two computations after each other: what the first one found is still known at the end. -/
lemma Keeps.bind {Good : Values → α → Prop} {Next : α → Values → β → Prop} {x : Resolving α}
    {f : α → Resolving β} (hx : Keeps Inv Bad x Good) (hstable : Stable Good)
    (hf : ∀ a, Keeps Inv Bad (f a) (Next a)) :
    Keeps Inv Bad (x >>= f) fun σ b => ∃ a, Good σ a ∧ Next a σ b := by
  intro memo hmemo
  have hx := hx memo hmemo
  rw [StateT.run_bind]
  cases hrun : x.run memo with
  | error e =>
      rw [hrun] at hx
      exact hx
  | ok p =>
      obtain ⟨a, memo₁⟩ := p
      rw [hrun] at hx
      obtain ⟨hinv, hle, ha⟩ := hx
      have hfa := hf a memo₁ hinv
      have hstep : (Except.ok (a, memo₁) >>= fun p => (f p.1).run p.2) = (f a).run memo₁ := rfl
      rw [hstep]
      split at hfa
      · obtain ⟨hinv', hle', hb⟩ := hfa
        exact ⟨hinv', hle.trans hle', a, hstable _ _ _ hle' ha, hb⟩
      · exact hfa

/-! ### Strings one after the other -/

section Strings

variable {f : String → Resolving Json} {R : Values → String → Json → Prop}

/-- What more values justify of every string, they justify of a value. -/
lemma stable_rewritten (hR : ∀ s, Stable fun σ w => R σ s w) (v : Json) :
    Stable fun σ w => v.Rewritten (R σ) w :=
  fun _ _ _ hle h => h.imp fun s _ u => hR s _ _ u hle

mutual

/-- If an invariant is kept at every string of a value, it is kept at the value. -/
theorem keeps_traverseStrings (hR : ∀ s, Stable fun σ w => R σ s w) : ∀ {v : Json},
    (∀ s ∈ v.strings, Keeps Inv Bad (f s) fun σ w => R σ s w) →
      Keeps Inv Bad (v.traverseStrings f) fun σ w => v.Rewritten (R σ) w
  | .null, _ => keeps_pure fun _ => .null
  | .bool b, _ => keeps_pure fun _ => .bool b
  | .int n, _ => keeps_pure fun _ => .int n
  | .float x, _ => keeps_pure fun _ => .float x
  | .str s, h => (h s (by simp [Json.strings])).imp fun _ _ hw => .str hw
  | .arr items, h => by
      have hitems := keeps_traverseItems hR (by simpa only [Json.strings] using h)
      refine (hitems.bind (fun _ _ _ hle hys => hys.imp fun s _ u => hR s _ _ u hle)
        fun ys => keeps_pure (a := Json.arr ys) fun _ => rfl).imp ?_
      rintro σ w ⟨ys, hys, rfl⟩
      exact .arr hys
  | .obj fields, h => by
      have hfields := keeps_traverseFields hR (by simpa only [Json.strings] using h)
      refine (hfields.bind (fun _ _ _ hle hys => hys.imp fun s _ u => hR s _ _ u hle)
        fun ys => keeps_pure (a := Json.obj ys) fun _ => rfl).imp ?_
      rintro σ w ⟨ys, hys, rfl⟩
      exact .obj hys

/-- The same for the items of a list. -/
theorem keeps_traverseItems (hR : ∀ s, Stable fun σ w => R σ s w) : ∀ {xs : List Json},
    (∀ s ∈ Json.stringsOfItems xs, Keeps Inv Bad (f s) fun σ w => R σ s w) →
      Keeps Inv Bad (Json.traverseItems f xs) fun σ ys => Json.RewrittenItems (R σ) xs ys
  | [], _ => keeps_pure fun _ => .nil
  | x :: xs, h => by
      have hx : Keeps Inv Bad (x.traverseStrings f) _ :=
        keeps_traverseStrings hR fun s hs => h s (by simp [Json.stringsOfItems, hs])
      have hxs : Keeps Inv Bad (Json.traverseItems f xs) _ :=
        keeps_traverseItems hR fun s hs => h s (by simp [Json.stringsOfItems, hs])
      refine (hx.bind (stable_rewritten hR x) fun y => hxs.bind
        (fun _ _ _ hle hys => hys.imp fun s _ u => hR s _ _ u hle)
          fun ys => keeps_pure (a := y :: ys) fun _ => rfl).imp ?_
      rintro σ w ⟨y, hy, ys, hys, rfl⟩
      exact .cons hy hys

/-- The same for the entries of an object. -/
theorem keeps_traverseFields (hR : ∀ s, Stable fun σ w => R σ s w) :
    ∀ {xs : List (String × Json)},
      (∀ s ∈ Json.stringsOfFields xs, Keeps Inv Bad (f s) fun σ w => R σ s w) →
        Keeps Inv Bad (Json.traverseFields f xs) fun σ ys => Json.RewrittenFields (R σ) xs ys
  | [], _ => keeps_pure fun _ => .nil
  | (key, x) :: xs, h => by
      have hx : Keeps Inv Bad (x.traverseStrings f) _ :=
        keeps_traverseStrings hR fun s hs => h s (by simp [Json.stringsOfFields, hs])
      have hxs : Keeps Inv Bad (Json.traverseFields f xs) _ :=
        keeps_traverseFields hR fun s hs => h s (by simp [Json.stringsOfFields, hs])
      refine (hx.bind (stable_rewritten hR x) fun y => hxs.bind
        (fun _ _ _ hle hys => hys.imp fun s _ u => hR s _ _ u hle)
          fun ys => keeps_pure (a := (key, y) :: ys) fun _ => rfl).imp ?_
      rintro σ w ⟨y, hy, ys, hys, rfl⟩
      exact .cons key hy hys

end

end Strings

/-! ### References one after the other -/

section References

variable {lookup : String → Resolving Json}

/-- A look-up that keeps the invariant and gives the value that is known afterwards. -/
def Finds (Inv : Memo → Prop) (Bad : ResolveError → Prop) (lookup : String → Resolving Json)
    (name : String) : Prop :=
  Keeps Inv Bad (lookup name) fun σ v => σ.named name = some v

/-- What has been filled in stays filled in. -/
lemma stable_pieces (ps : List Piece) :
    Stable fun σ (cs : List Char) => replaceInPieces σ.named ps = some cs := by
  intro σ τ cs hle h
  rw [← h]
  refine replaceInPieces_congr fun name hname => ?_
  obtain ⟨v, hv⟩ := exists_of_replaceInPieces h hname
  rw [hv]
  exact hle _ v hv

/-- If look-ups find the names of pieces, the pieces are filled in. -/
lemma keeps_replaceInPieces {ps : List Piece}
    (h : ∀ name, .reference name ∈ ps → Finds Inv Bad lookup (String.ofList name)) :
    Keeps Inv Bad (replaceInPieces lookup ps) fun σ cs =>
      replaceInPieces σ.named ps = some cs := by
  induction ps with
  | nil => exact keeps_pure fun _ => rfl
  | cons p ps ih =>
      have hps := ih fun name hname => h name (by simp [hname])
      cases p with
      | char c =>
          refine (hps.bind (stable_pieces ps)
            fun cs => keeps_pure (a := c :: cs) fun _ => rfl).imp ?_
          rintro σ out ⟨cs, hcs, rfl⟩
          rw [replaceInPieces, hcs]
          rfl
      | reference name =>
          refine ((h name (by simp)).bind (fun _ _ _ hle hv => hle _ _ hv) fun v =>
            hps.bind (stable_pieces ps)
              fun cs => keeps_pure (a := v.embedded.toList ++ cs) fun _ => rfl).imp ?_
          rintro σ out ⟨v, hv, cs, hcs, rfl⟩
          rw [replaceInPieces, hv, hcs]
          rfl

/-- If look-ups find the names of a string, it is replaced as the rule says. -/
lemma keeps_replaceInText {s : String}
    (h : ∀ name, .reference name ∈ pieces s.toList → Finds Inv Bad lookup (String.ofList name)) :
    Keeps Inv Bad (replaceInText lookup s) fun σ w => SubstitutedText σ s w := by
  simp only [substitutedText_iff]
  rw [replaceInText]
  split
  · next name hname =>
      refine (h name ((mem_pieces_of_whole hname).mpr rfl)).imp fun σ v hv => ?_
      rw [replaceInText, hname]
      exact hv
  · next hnone =>
      refine ((keeps_replaceInPieces h).bind (stable_pieces _)
        fun cs => keeps_pure (a := Json.str (String.ofList cs)) fun _ => rfl).imp ?_
      rintro σ w ⟨cs, hcs, rfl⟩
      rw [replaceInText, hnone]
      simp [hcs]

/-- **If look-ups find the references of a value, it is replaced as the rule says.** -/
theorem keeps_replaceReferences {v : Json}
    (h : ∀ name, Text.stripped name ∈ v.references → Finds Inv Bad lookup name) :
    Keeps Inv Bad (replaceReferences lookup v) fun σ w => Substituted σ v w := by
  refine keeps_traverseStrings (fun s σ τ w hle hw => ?_) fun s hs => ?_
  · exact hw.mono fun _ _ x hx => hle _ x hx
  · exact keeps_replaceInText fun name hname => h _ (stripped_mem_references hs hname)

end References

end Resolving

end StyleTokens
