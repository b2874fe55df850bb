import StyleTokens.Proofs.Reading
import StyleTokens.Proofs.Strings
import StyleTokens.Token.Resolution

/-!
What it means to replace the references of a value.

* `Values`: what is known of the values of paths, and `Values.Le`, its order;
* `Reference.Filled`: a text in which every reference is replaced by the text of the value it
  names;
* `Substituted`: a value in which a string that is one reference is replaced by the value it names
  as it is, and in any longer string the references are filled in as text;
* `substitutedText_iff`: replacing the references of a string gives what the rule says;
* `Substituted.unique`, `Substituted.mono`, `Substituted.defined`: the rule gives one value, which
  depends on the values of the references inside alone, and each of them has one.
-/

namespace StyleTokens

/-- What is known of the values of paths. -/
abbrev Values := Path → Option Json

namespace Values

/-- Whatever is known is also known to the other side. -/
def Le (σ τ : Values) : Prop := ∀ p v, σ p = some v → τ p = some v

lemma Le.refl (σ : Values) : σ.Le σ := fun _ _ h => h

lemma Le.trans {σ τ υ : Values} (h : σ.Le τ) (h' : τ.Le υ) : σ.Le υ :=
  fun p v hv => h' p v (h p v hv)

/-- The value that a reference names. -/
def named (values : Values) (name : String) : Option Json := values (Reference.target name)

end Values

/-! ### The rule of substitution -/

namespace Reference

/-- The second text is the first one with every reference replaced by the text of the value that it
names. -/
inductive Filled (values : Values) : List Char → List Char → Prop where
  | free {cs : List Char} : Free cs → Filled values cs cs
  | reference {before after front back name : List Char} {v : Json} :
      Filled values before front → IsName name → values.named (String.ofList name) = some v →
        Filled values after back →
          Filled values (before ++ braced name ++ after) (front ++ v.embedded.toList ++ back)

/-- The text is one reference to the name, and white space around it. -/
def IsWhole (s : String) (name : List Char) : Prop :=
  IsName name ∧ Text.strip s.toList = braced name

end Reference

open Reference

/-- What becomes of a string: the value that it names if it is one reference, and otherwise the text
with its references filled in. -/
inductive SubstitutedText (values : Values) (s : String) : Json → Prop where
  | whole {name : List Char} {v : Json} :
      IsWhole s name → values.named (String.ofList name) = some v → SubstitutedText values s v
  | text {out : List Char} :
      (∀ name, ¬ IsWhole s name) → Filled values s.toList out →
        SubstitutedText values s (.str (String.ofList out))

/-- What becomes of a value: its strings are replaced one by one, and all else stays. -/
def Substituted (values : Values) (v w : Json) : Prop := v.Rewritten (SubstitutedText values) w

/-! ### The names that are looked up -/

/-- White space around a name does not matter for what it names. -/
@[simp] lemma Reference.target_strip (name : List Char) :
    target (String.ofList (Text.strip name)) = target (String.ofList name) := by
  simp [target, Text.stripped]

@[simp] lemma Reference.target_stripped (name : String) :
    target (Text.stripped name) = target name := by
  simp [target]

/-- The references of a string are those that are read in it. -/
lemma mem_references_str {s r : String} : r ∈ (Json.str s).references ↔
    ∃ name, .reference name ∈ pieces s.toList ∧ r = Text.stripped (String.ofList name) := by
  rw [Json.references, List.mem_map]
  constructor
  · rintro ⟨cs, hcs, rfl⟩
    obtain ⟨name, hname, rfl⟩ := mem_names.mp hcs
    exact ⟨name, hname, by simp [Text.stripped]⟩
  · rintro ⟨name, hname, rfl⟩
    exact ⟨_, mem_names.mpr ⟨name, hname, rfl⟩, by simp [Text.stripped]⟩

section Lookup

variable {m : Type → Type} [Monad m] {f g : String → m Json}

/-- The pieces of a text look up their own names alone. -/
lemma replaceInPieces_congr {ps : List Piece}
    (h : ∀ name, .reference name ∈ ps → f (String.ofList name) = g (String.ofList name)) :
    replaceInPieces f ps = replaceInPieces g ps := by
  induction ps with
  | nil => rfl
  | cons p ps ih =>
      have ih := ih fun name hname => h name (by simp [hname])
      cases p with
      | char c => rw [replaceInPieces, replaceInPieces, ih]
      | reference name => rw [replaceInPieces, replaceInPieces, ih, h name (by simp)]

/-- A string looks up the names that are read in it alone. -/
lemma replaceInText_congr {s : String}
    (h : ∀ name, .reference name ∈ pieces s.toList →
      f (String.ofList name) = g (String.ofList name)) :
    replaceInText f s = replaceInText g s := by
  rw [replaceInText, replaceInText]
  split
  · next name hname => exact h name ((mem_pieces_of_whole hname).mpr rfl)
  · rw [replaceInPieces_congr h]

end Lookup

section Known

variable {f g : String → Option Json}

/-- Filling in pieces one after the other. -/
lemma replaceInPieces_append (ps qs : List Piece) :
    replaceInPieces f (ps ++ qs) = (replaceInPieces f ps).bind fun cs =>
      (replaceInPieces f qs).map (cs ++ ·) := by
  induction ps with
  | nil => simp [replaceInPieces]
  | cons p ps ih =>
      cases p with
      | char c =>
          rw [List.cons_append, replaceInPieces, replaceInPieces, ih]
          cases replaceInPieces f ps <;> cases replaceInPieces f qs <;> rfl
      | reference name =>
          rw [List.cons_append, replaceInPieces, replaceInPieces, ih]
          cases f (String.ofList name) <;> cases replaceInPieces f ps <;>
            cases replaceInPieces f qs <;> simp

/-- Characters stand for themselves. -/
lemma replaceInPieces_chars (cs : List Char) : replaceInPieces f (chars cs) = some cs := by
  induction cs with
  | nil => rfl
  | cons c cs ih =>
      rw [chars, List.map_cons, replaceInPieces, ← chars, ih]
      rfl

/-- If pieces can be filled in, each of their names has a value. -/
lemma exists_of_replaceInPieces {ps : List Piece} {out : List Char}
    (h : replaceInPieces f ps = some out) {name : List Char} (hname : .reference name ∈ ps) :
    ∃ v, f (String.ofList name) = some v := by
  obtain ⟨front, back, rfl⟩ := List.append_of_mem hname
  rw [replaceInPieces_append, replaceInPieces] at h
  cases hv : f (String.ofList name) with
  | some v => exact ⟨v, rfl⟩
  | none => simp [hv] at h

/-- If the references of a string can be replaced, each of its names has a value. -/
lemma exists_of_replaceInText {s : String} {w : Json} (h : replaceInText f s = some w)
    {name : List Char} (hname : .reference name ∈ pieces s.toList) :
    ∃ v, f (String.ofList name) = some v := by
  rw [replaceInText] at h
  split at h
  · next raw hraw =>
      obtain rfl := (mem_pieces_of_whole hraw).mp hname
      exact ⟨w, h⟩
  · cases hout : replaceInPieces f (pieces s.toList) with
    | some out => exact exists_of_replaceInPieces hout hname
    | none => simp [hout] at h

end Known

/-! ### Strings with their references replaced -/

section Rule

variable {values : Values}

/-- Filling in the pieces of a text gives what the rule says. -/
lemma Reference.Filled.replaceInPieces_eq {cs out : List Char} (h : Filled values cs out) :
    replaceInPieces values.named (pieces cs) = some out := by
  induction h with
  | free hfree => rw [free_iff_pieces.mp hfree, replaceInPieces_chars]
  | reference _ hname hv _ ih ih' =>
      rw [pieces_braced hname, replaceInPieces_append, replaceInPieces, ih, ih', hv]
      simp

/-- Filling in the pieces of a text is all that the rule allows. -/
lemma Reference.filled_of_replaceInPieces {cs out : List Char}
    (h : replaceInPieces values.named (pieces cs) = some out) : Filled values cs out := by
  induction hn : cs.length using Nat.strong_induction_on generalizing cs out with
  | _ n ih =>
      subst hn
      by_cases hfree : Free cs
      · rw [free_iff_pieces.mp hfree, replaceInPieces_chars] at h
        obtain rfl := Option.some.inj h
        exact .free hfree
      · -- a text that is not free of references splits at one of them into two shorter texts
        simp only [Free, not_forall, ne_eq, not_not] at hfree
        obtain ⟨before, name, after, hname, rfl⟩ := hfree
        simp only [braced, List.length_append, List.length_cons] at ih
        rw [pieces_braced hname, replaceInPieces_append, replaceInPieces] at h
        cases hfront : replaceInPieces values.named (pieces before) with
        | none => simp [hfront] at h
        | some front =>
            cases hv : values.named (String.ofList name) with
            | none => simp [hv] at h
            | some v =>
                cases hback : replaceInPieces values.named (pieces after) with
                | none => simp [hback] at h
                | some back =>
                    have hout : out = front ++ v.embedded.toList ++ back := by
                      simpa [hfront, hv, hback, eq_comm] using h
                    rw [hout]
                    exact .reference (ih _ (by omega) hfront rfl) hname hv
                      (ih _ (by omega) hback rfl)

lemma Reference.isWhole_iff {s : String} {name : List Char} :
    IsWhole s name ↔ whole? s.toList = some name :=
  whole?_eq_some_iff.symm

/-- **Replacing the references of a string gives what the rule says.** -/
theorem substitutedText_iff {s : String} {w : Json} :
    SubstitutedText values s w ↔ replaceInText values.named s = some w := by
  constructor
  · rintro (⟨hwhole, hv⟩ | ⟨hwhole, hout⟩)
    · rw [replaceInText, isWhole_iff.mp hwhole]
      exact hv
    · have hnone : whole? s.toList = none :=
        Option.eq_none_iff_forall_ne_some.mpr fun name h => hwhole name (isWhole_iff.mpr h)
      rw [replaceInText, hnone]
      simp [hout.replaceInPieces_eq]
  · intro h
    rw [replaceInText] at h
    split at h
    · next name hname => exact .whole (isWhole_iff.mpr hname) h
    · next hnone =>
        cases hout : replaceInPieces values.named (pieces s.toList) with
        | none => simp [hout] at h
        | some out =>
            obtain rfl : Json.str (String.ofList out) = w := by simpa [hout] using h
            refine .text (fun name hname => ?_) (filled_of_replaceInPieces hout)
            rw [isWhole_iff, hnone] at hname
            exact absurd hname (by simp)

variable {σ τ : Values}

/-- Only the values of the names that are read in a string matter. -/
lemma SubstitutedText.mono {s : String} {w : Json}
    (hle : ∀ name, .reference name ∈ pieces s.toList → ∀ x,
      σ.named (String.ofList name) = some x → τ.named (String.ofList name) = some x)
    (h : SubstitutedText σ s w) : SubstitutedText τ s w := by
  rw [substitutedText_iff] at h ⊢
  rw [← h]
  refine replaceInText_congr fun name hname => ?_
  obtain ⟨x, hx⟩ := exists_of_replaceInText h hname
  rw [hx, hle name hname x hx]

/-! ### Values with their references replaced -/

variable {v w w' : Json}

/-- A name that is read in a string of a value is a reference of the value. -/
lemma stripped_mem_references {s : String} {name : List Char} (hs : s ∈ v.strings)
    (hname : .reference name ∈ pieces s.toList) :
    Text.stripped (String.ofList name) ∈ v.references :=
  Json.mem_references.mpr ⟨s, hs, mem_references_str.mpr ⟨name, hname, rfl⟩⟩

/-- A value whose references are replaced has a value for each of them. -/
theorem Substituted.defined (h : Substituted σ v w) {r : String} (hr : r ∈ v.references) :
    ∃ x, σ (Reference.target r) = some x := by
  obtain ⟨s, hs, hr⟩ := Json.mem_references.mp hr
  obtain ⟨name, hname, rfl⟩ := mem_references_str.mp hr
  obtain ⟨u, hu, -⟩ := h.exists_of_mem hs
  obtain ⟨x, hx⟩ := exists_of_replaceInText (substitutedText_iff.mp hu) hname
  exact ⟨x, by simpa [Values.named] using hx⟩

/-- Only the values of the references inside matter. -/
theorem Substituted.mono
    (hle : ∀ r ∈ v.references, ∀ x, σ (Reference.target r) = some x →
      τ (Reference.target r) = some x)
    (h : Substituted σ v w) : Substituted τ v w := by
  refine Json.Rewritten.imp (fun s hs u hu => ?_) h
  refine hu.mono fun name hname x hx => ?_
  have hτ := hle _ (stripped_mem_references hs hname) x
  rw [target_stripped] at hτ
  exact hτ hx

/-- Knowing more values changes nothing. -/
lemma Substituted.le (hle : σ.Le τ) (h : Substituted σ v w) : Substituted τ v w :=
  h.mono fun _ _ x hx => hle _ x hx

/-- The rule gives one value. -/
theorem Substituted.unique (h : Substituted σ v w) (h' : Substituted σ v w') : w = w' := by
  refine Json.Rewritten.unique (fun s _ u u' hu hu' => ?_) h h'
  rw [substitutedText_iff] at hu hu'
  rw [hu] at hu'
  exact Option.some.inj hu'

end Rule

end StyleTokens
