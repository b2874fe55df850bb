import StyleTokens.Proofs.Basic
import StyleTokens.Proofs.Merging

/-!
What the value of a path depends on.

* `rawValue`, `LeadsTo`: the value that documents define at a path, and the paths that it leads to by
  references;
* `values_congr`: if the paths that a path leads to have the same raw values in other documents, it
  has the same resolved value there;
* `Document.Disjoint`, `Reordered`: documents without a common path, and documents in another order
  in which those with a common path stay in order;
* `Reordered.of_perm`: documents that have no common path at all can come in any order;
* `resolve_local`: other definitions than those that a path leads to do not change its value.
-/

namespace StyleTokens

variable {docs docs' : List Document} {c c' : TokenList} {p : Path}

/-- The value that the last definition of a path holds. -/
def rawValue (docs : List Document) (path : Path) : Option Json :=
  (lastDefinition docs path).map Token.value

/-- The second path is the first one, or is reached from it by references. -/
def LeadsTo (docs : List Document) (p q : Path) : Prop :=
  Relation.ReflTransGen (Refers (lastDefinition docs)) p q

/-! ### Two sets of definitions -/

/-- A path has a value if another set of documents gives it one, and its raw value and those that it
leads to are the same there. -/
lemma values_eq_some_of_agree (h : resolve docs = .ok c) (h' : resolve docs' = .ok c') {v : Json}
    (hv : c.values p = some v) (hsame : ∀ q, LeadsTo docs p q → rawValue docs' q = rawValue docs q) :
    c'.values p = some v := by
  have hacc := acc_of_resolve h hv
  -- references lead on for a while only, so the values of the references are compared first
  induction hacc generalizing v with
  | intro p _ ih =>
      obtain ⟨t, ht, hsub⟩ := (solves_values h).exists_definition hv
      have hraw : rawValue docs' p = some t.value := by
        rw [hsame p .refl, rawValue, ht, Option.map_some]
      obtain ⟨t', ht', hvalue⟩ := Option.map_eq_some_iff.mp hraw
      obtain ⟨v', hv', hsub'⟩ := (solves_values h').exists_value ht'
      rw [hvalue] at hsub'
      have hmono : Substituted c'.values t.value v := by
        refine hsub.mono fun r hr x hx => ?_
        have hrefers : Refers (lastDefinition docs) p (Reference.target r) := ⟨t, ht, r, hr, rfl⟩
        exact ih _ hrefers hx fun q hq => hsame q (.head hrefers hq)
      rw [hv', hmono.unique hsub']

/-- **The value of a path depends on the raw values that it leads to alone.** -/
theorem values_congr (h : resolve docs = .ok c) (h' : resolve docs' = .ok c')
    (hsame : ∀ q, LeadsTo docs p q → rawValue docs' q = rawValue docs q) :
    c'.values p = c.values p := by
  cases hv : c.values p with
  | some v => exact values_eq_some_of_agree h h' hv hsame
  | none =>
      -- a path without a value has no definition on either side
      have hnone : lastDefinition docs' p = none := by
        have hraw := hsame p .refl
        cases ht : lastDefinition docs p with
        | some t =>
            obtain ⟨v, hv', -⟩ := (solves_values h).exists_value ht
            exact absurd (hv.symm.trans hv') (by simp)
        | none => simpa [rawValue, ht] using hraw
      have hp := solves_values h' p
      rwa [hnone] at hp

/-- Whether documents can be resolved is told by their last definitions. -/
lemma exists_resolve_of_lastDefinition (h : resolve docs = .ok c)
    (hdefs : lastDefinition docs' = lastDefinition docs) : ∃ c', resolve docs' = .ok c' := by
  cases h' : resolve docs' with
  | ok c' => exact ⟨c', rfl⟩
  | error e =>
      have hjustified := justified_of_resolve h'
      rw [hdefs] at hjustified
      obtain ⟨hclosed, hacyclic⟩ := closed_acyclic_of_resolve h
      obtain ⟨-, -, -, hknown, -⟩ := exists_ordered_of_resolve h
      exact absurd hjustified (not_justified hclosed hacyclic hknown e)

/-! ### Documents in another order -/

/-- No path is defined in both documents. -/
def Document.Disjoint (a b : Document) : Prop := ∀ t ∈ a.flatten, ∀ u ∈ b.flatten, t.path ≠ u.path

instance (a b : Document) : Decidable (a.Disjoint b) :=
  inferInstanceAs (Decidable (∀ t ∈ a.flatten, ∀ u ∈ b.flatten, t.path ≠ u.path))

lemma Document.Disjoint.symm {a b : Document} (h : a.Disjoint b) : b.Disjoint a :=
  fun u hu t ht => (h t ht u hu).symm

/-- Documents in another order: neighbours without a common path change places, again and again. -/
inductive Reordered : List Document → List Document → Prop where
  | nil : Reordered [] []
  | cons (doc : Document) {docs docs' : List Document} :
      Reordered docs docs' → Reordered (doc :: docs) (doc :: docs')
  | swap {a b : Document} (docs : List Document) :
      a.Disjoint b → Reordered (a :: b :: docs) (b :: a :: docs)
  | trans {docs docs' docs'' : List Document} :
      Reordered docs docs' → Reordered docs' docs'' → Reordered docs docs''

/-- Documents without any common path can come in any order. -/
lemma Reordered.of_perm (h : docs.Perm docs') (hdisjoint : docs.Pairwise Document.Disjoint) :
    Reordered docs docs' := by
  induction h with
  | nil => exact .nil
  | cons doc _ ih => exact .cons doc (ih hdisjoint.of_cons)
  | swap a b docs =>
      exact .swap docs (List.rel_of_pairwise_cons hdisjoint (List.mem_cons_self ..))
  | trans h₁ _ ih₁ ih₂ =>
      exact .trans (ih₁ hdisjoint) (ih₂ (hdisjoint.perm h₁ Document.Disjoint.symm))

/-- The last definition is one of the later documents, or else one of the first. -/
lemma lastDefinition_cons (doc : Document) (docs : List Document) (path : Path) :
    lastDefinition (doc :: docs) path
      = (lastDefinition docs path).or (lastDefinition [doc] path) :=
  lastDefinition_append [doc] docs path

/-- Of documents without a common path, at most one defines a path. -/
lemma Document.Disjoint.lastDefinition_or {a b : Document} (h : a.Disjoint b) (path : Path) :
    (lastDefinition [a] path).or (lastDefinition [b] path)
      = (lastDefinition [b] path).or (lastDefinition [a] path) := by
  cases ha : lastDefinition [a] path with
  | none => simp
  | some t =>
      cases hb : lastDefinition [b] path with
      | none => simp
      | some u =>
          obtain ⟨doc, hdoc, ht⟩ := exists_of_lastDefinition ha
          obtain ⟨doc', hdoc', hu⟩ := exists_of_lastDefinition hb
          rw [List.mem_singleton.mp hdoc] at ht
          rw [List.mem_singleton.mp hdoc'] at hu
          have hpath := (path_of_lastDefinition ha).trans (path_of_lastDefinition hb).symm
          exact absurd hpath (h t ht u hu)

/-- Documents in another order have the same last definitions. -/
lemma Reordered.lastDefinition_eq (h : Reordered docs docs') :
    lastDefinition docs' = lastDefinition docs := by
  induction h with
  | nil => rfl
  | @cons doc docs docs' _ ih =>
      funext path
      rw [lastDefinition_cons doc docs', lastDefinition_cons doc docs, ih]
  | swap docs hdisjoint =>
      funext path
      simp only [lastDefinition_cons _ (_ :: docs), lastDefinition_cons _ docs, Option.or_assoc,
        hdisjoint.lastDefinition_or]
  | trans _ _ ih₁ ih₂ => rw [ih₂, ih₁]

/-! ### Locality -/

/-- **Only the definitions that a path leads to decide its value.** If documents can be resolved, any
others that can be resolved give a token the same value if every path that it leads to, itself
included, has the same raw value there. In particular, documents in another order, in which only
documents without a common path change places, are resolved to the same values, and documents that
are appended change no value of a path that leads to none of their definitions. -/
theorem resolve_local (h : resolve docs = .ok c) :
    (∀ docs' c', resolve docs' = .ok c' → ∀ p t t', c.get? p = some t → c'.get? p = some t' →
      (∀ q, LeadsTo docs p q → rawValue docs' q = rawValue docs q) → t'.value = t.value) ∧
    (∀ docs', Reordered docs docs' →
      ∃ c', resolve docs' = .ok c' ∧ ∀ p, c'.values p = c.values p) ∧
    ∀ more c', resolve (docs ++ more) = .ok c' → ∀ p,
      (∀ q, LeadsTo docs p q → ∀ doc ∈ more, ∀ u ∈ doc.flatten, u.path ≠ q) →
        c'.values p = c.values p := by
  refine ⟨?_, ?_, ?_⟩
  · intro docs' c' h' p t t' ht ht' hsame
    have hvalues := values_congr h h' hsame
    rw [TokenList.values, TokenList.values, ht, ht'] at hvalues
    exact Option.some.inj hvalues
  · intro docs' hreordered
    have hdefs := hreordered.lastDefinition_eq
    obtain ⟨c', h'⟩ := exists_resolve_of_lastDefinition h hdefs
    exact ⟨c', h', fun p => values_congr h h' fun q _ => by rw [rawValue, rawValue, hdefs]⟩
  · intro more c' h' p hnew
    refine values_congr h h' fun q hq => ?_
    have hnone : lastDefinition more q = none := lastDefinition_eq_none_iff.mpr (hnew q hq)
    rw [rawValue, rawValue, lastDefinition_append, hnone, Option.none_or]

/-- A path leads only to members of a class that is closed under references. -/
lemma LeadsTo.mem {paths : List Path} (hp : p ∈ paths)
    (hclosed : ∀ q ∈ paths, ∀ v ∈ rawValue docs q, ∀ r ∈ v.references,
      Reference.target r ∈ paths) {q : Path} (h : LeadsTo docs p q) : q ∈ paths := by
  induction h with
  | refl => exact hp
  | tail _ hrefers ih =>
      obtain ⟨t, ht, r, hr, rfl⟩ := hrefers
      exact hclosed _ ih t.value (by rw [rawValue, ht]; rfl) r hr

/-- A gap that refers to a size. -/
def gapSizes : Document :=
  ⟨"gaps", [
    ("size", .obj [("value", .int 8)]),
    ("gap", .obj [("value", .str "\x7bsize\x7dpx")])]⟩

/-- An ink, and a border that refers to the gap and to the ink. -/
def dayInks : Document :=
  ⟨"day", [
    ("ink", .obj [("value", .str "black")]),
    ("edge", .obj [("value", .str "\x7bgap\x7d solid \x7bink\x7d")])]⟩

/-- Another ink. -/
def nightInks : Document := ⟨"night", [("ink", .obj [("value", .str "white")])]⟩

/-- The first two documents can change places. The third one does not change the gap, which does not
lead to the ink, while it changes the border, which does. -/
theorem resolve_local_inks :
    ∃ c c' c'', resolve [gapSizes, dayInks] = .ok c ∧ resolve [dayInks, gapSizes] = .ok c' ∧
      resolve ([gapSizes, dayInks] ++ [nightInks]) = .ok c'' ∧
      c.tokens.map (fun t => t.value.embedded) = ["8", "8px", "black", "8px solid black"] ∧
      (∀ p, c'.values p = c.values p) ∧ c''.values ["gap"] = c.values ["gap"] ∧
      c''.tokens.map (fun t => t.value.embedded) = ["8", "8px", "white", "8px solid white"] := by
  have hday : (resolve [gapSizes, dayInks]).map (fun c => c.tokens.map fun t => t.value.embedded)
      = .ok ["8", "8px", "black", "8px solid black"] := by decide +kernel
  have hnight : (resolve ([gapSizes, dayInks] ++ [nightInks])).map
      (fun c => c.tokens.map fun t => t.value.embedded)
      = .ok ["8", "8px", "white", "8px solid white"] := by decide +kernel
  obtain ⟨c, hc, hvalues⟩ := exists_of_map_eq_ok hday
  obtain ⟨c'', hc'', hvalues''⟩ := exists_of_map_eq_ok hnight
  have hswap : Reordered [gapSizes, dayInks] [dayInks, gapSizes] :=
    .of_perm (List.Perm.swap _ _ _) (by decide)
  obtain ⟨c', hc', hsame⟩ := (resolve_local hc).2.1 _ hswap
  refine ⟨c, c', c'', hc, hc', hc'', hvalues, hsame, ?_, hvalues''⟩
  -- from the gap, references lead to the size and no further
  have hclosed : ∀ q ∈ [["gap"], ["size"]], ∀ v ∈ rawValue [gapSizes, dayInks] q,
      ∀ r ∈ v.references, Reference.target r ∈ [["gap"], ["size"]] := by
    rw [List.forall_mem_cons, List.forall_mem_singleton]
    constructor
    · rintro v ⟨⟩
      decide
    · rintro v ⟨⟩
      decide
  have hfar : ∀ q ∈ [["gap"], ["size"]], ∀ doc ∈ [nightInks], ∀ u ∈ doc.flatten, u.path ≠ q := by
    decide
  exact (resolve_local hc).2.2 _ _ hc'' _ fun q hq => hfar q (hq.mem (by decide) hclosed)

end StyleTokens
