import Mathlib.Order.Bounds.Basic
import Mathlib.Order.MinMax
import Mathlib.Tactic.Common
import StyleTokens.Check.Similarity

/-!
The edit distance and the similarity.

* `editTable_step`, `editTable_cons`: a row of the table is one distance in front of the row for the
  second text without its first character;
* `editDistance_nil_left`, `editDistance_nil_right`, `editDistance_cons_cons`: the distance by
  recursion on both texts;
* `Edits`, `editDistance_isLeast`: the distance is the least number of changes that turn one text into
  the other;
* `editDistance_comm`: it is symmetric, as changes can be changed back;
* `similarity_comm`, `isSimilar_comm`: two texts are as similar either way.
-/

namespace StyleTokens

variable {as bs : List Char} {c d : Char} {n : Nat}

/-! ### The table -/

/-- A row has one distance for each end of the second text. -/
lemma length_editRow {row : List Nat} (h : row.length = bs.length + 1) :
    (editRow c bs row).length = bs.length + 1 := by
  induction bs generalizing row with
  | nil => rw [editRow, List.length_map, h]; simp
  | cons d bs ih =>
      match row, h with
      | here :: next :: row, h =>
          have hbelow : (editRow c bs (next :: row)).length = bs.length + 1 :=
            ih (Nat.succ.inj h)
          rw [editRow]
          cases hrow : editRow c bs (next :: row) with
          | nil => rw [hrow] at hbelow; cases hbelow
          | cons below rest => rw [hrow] at hbelow; exact congrArg (· + 1) hbelow

lemma length_editTable (bs as : List Char) : (editTable bs as).length = bs.length + 1 := by
  induction as with
  | nil => rw [editTable, List.length_reverse, List.length_range]
  | cons c as ih => exact length_editRow ih

/-- A row begins with the distance to the whole second text. -/
lemma exists_editTable (bs as : List Char) :
    ∃ rest, editTable bs as = editDistance as bs :: rest := by
  have hlength := length_editTable bs as
  cases h : editTable bs as with
  | nil => rw [h] at hlength; cases hlength
  | cons first rest => exact ⟨rest, by rw [editDistance, h]; rfl⟩

/-- The next row of the table, if in the row before it a distance stands in front of the row for the
second text without its first character. -/
lemma editTable_step {here : Nat} (h : editTable (d :: bs) as = here :: editTable bs as) :
    editTable (d :: bs) (c :: as)
      = (if c = d then editDistance as bs
          else 1 + min (editDistance as bs) (min here (editDistance (c :: as) bs)))
        :: editTable bs (c :: as) := by
  obtain ⟨row, hrow⟩ := exists_editTable bs as
  obtain ⟨rest, hrest⟩ := exists_editTable bs (c :: as)
  have hbelow : editRow c bs (editDistance as bs :: row) = editDistance (c :: as) bs :: rest := by
    rw [← hrow, ← hrest, editTable]
  rw [editTable, h, hrow, editRow, hbelow, hrest]

lemma editTable_cons (d : Char) (bs as : List Char) :
    editTable (d :: bs) as = editDistance as (d :: bs) :: editTable bs as := by
  have hcons : ∃ here, editTable (d :: bs) as = here :: editTable bs as := by
    induction as with
    | nil =>
        refine ⟨bs.length + 1, ?_⟩
        rw [editTable, editTable, List.length_cons, List.range_succ, List.reverse_append]
        rfl
    | cons c as ih =>
        obtain ⟨here, h⟩ := ih
        exact ⟨_, editTable_step h⟩
  obtain ⟨here, h⟩ := hcons
  rw [editDistance, h]
  rfl

/-! ### The distance -/

/-- Every character of the second text is inserted. -/
@[simp] lemma editDistance_nil_left (bs : List Char) : editDistance [] bs = bs.length := by
  rw [editDistance, editTable, List.range_succ, List.reverse_append]
  rfl

/-- The distance of texts that are not empty. -/
lemma editDistance_cons_cons (c d : Char) (as bs : List Char) :
    editDistance (c :: as) (d :: bs)
      = if c = d then editDistance as bs
        else 1 + min (editDistance as bs)
          (min (editDistance as (d :: bs)) (editDistance (c :: as) bs)) := by
  have hrow := editTable_step (c := c) (editTable_cons d bs as)
  rw [editTable_cons] at hrow
  exact (List.cons.inj hrow).1

/-- Every character of the first text is deleted. -/
@[simp] lemma editDistance_nil_right (as : List Char) : editDistance as [] = as.length := by
  induction as with
  | nil => rfl
  | cons c as ih =>
      obtain ⟨rest, hrow⟩ := exists_editTable [] as
      rw [editDistance, editTable, hrow, editRow, ih]
      · rfl
      · simp

/-! ### Changes that turn one text into another -/

/-- The first text is turned into the second one by a number of insertions, deletions and
replacements of characters. -/
inductive Edits : List Char → List Char → Nat → Prop where
  | nil : Edits [] [] 0
  | keep (c : Char) {as bs n} : Edits as bs n → Edits (c :: as) (c :: bs) n
  | replace (c d : Char) {as bs n} : Edits as bs n → Edits (c :: as) (d :: bs) (n + 1)
  | delete (c : Char) {as bs n} : Edits as bs n → Edits (c :: as) bs (n + 1)
  | insert (d : Char) {as bs n} : Edits as bs n → Edits as (d :: bs) (n + 1)

namespace Edits

/-- What was changed is changed back: deletions become insertions. -/
lemma symm (h : Edits as bs n) : Edits bs as n := by
  induction h with
  | nil => exact .nil
  | keep c _ ih => exact .keep c ih
  | replace c d _ ih => exact .replace d c ih
  | delete c _ ih => exact .insert c ih
  | insert d _ ih => exact .delete d ih

/-- Every character of a longer second text has to be inserted. -/
lemma length_le (h : Edits as bs n) : bs.length ≤ as.length + n := by
  induction h with
  | nil => simp
  | keep c _ ih | replace c d _ ih | delete c _ ih | insert d _ ih =>
      simp only [List.length_cons]
      omega

/-- Without its first character, the second text takes one change more at most. -/
lemma of_cons_right (h : Edits as (d :: bs) n) : ∃ m ≤ n + 1, Edits as bs m := by
  generalize hds : d :: bs = ds at h
  induction h with
  | nil => cases hds
  | keep c h ih =>
      cases hds
      exact ⟨_, le_rfl, .delete _ h⟩
  | replace c e h ih =>
      cases hds
      exact ⟨_, Nat.le_succ _, .delete c h⟩
  | delete c h ih =>
      obtain ⟨m, hm, hedits⟩ := ih hds
      exact ⟨m + 1, Nat.succ_le_succ hm, .delete c hedits⟩
  | insert e h ih =>
      cases hds
      exact ⟨_, by omega, h⟩

/-- Texts with the same first character take as many changes as without it. -/
lemma of_cons_cons (h : Edits (c :: as) (c :: bs) n) : ∃ m ≤ n, Edits as bs m := by
  cases h with
  | keep _ h => exact ⟨n, le_rfl, h⟩
  | replace _ _ h => exact ⟨_, Nat.le_succ _, h⟩
  | delete _ h => exact h.of_cons_right
  | insert _ h =>
      obtain ⟨m, hm, hedits⟩ := h.symm.of_cons_right
      exact ⟨m, hm, hedits.symm⟩

end Edits

/-- As many changes as the distance says are enough. -/
lemma edits_editDistance (as bs : List Char) : Edits as bs (editDistance as bs) := by
  induction as generalizing bs with
  | nil =>
      induction bs with
      | nil => exact .nil
      | cons d bs ih =>
          rw [editDistance_nil_left] at ih ⊢
          exact .insert d ih
  | cons c as ih =>
      induction bs with
      | nil =>
          have hdelete := (ih []).delete c
          rw [editDistance_nil_right] at hdelete ⊢
          exact hdelete
      | cons d bs ih' =>
          rw [editDistance_cons_cons]
          split
          · next h => exact h ▸ .keep c (ih bs)
          · rcases min_choice (editDistance as bs)
              (min (editDistance as (d :: bs)) (editDistance (c :: as) bs)) with h | h
            · rw [h, Nat.add_comm]
              exact .replace c d (ih bs)
            · rcases min_choice (editDistance as (d :: bs)) (editDistance (c :: as) bs) with h' | h'
              · rw [h, h', Nat.add_comm]
                exact .delete c (ih (d :: bs))
              · rw [h, h', Nat.add_comm]
                exact .insert d ih'

/-- Fewer changes are not enough. -/
lemma Edits.editDistance_le (h : Edits as bs n) : editDistance as bs ≤ n := by
  induction as generalizing bs n with
  | nil =>
      rw [editDistance_nil_left]
      simpa using h.length_le
  | cons c as ih =>
      induction bs generalizing n with
      | nil =>
          rw [editDistance_nil_right]
          simpa using h.symm.length_le
      | cons d bs ih' =>
          rw [editDistance_cons_cons]
          by_cases heq : c = d
          · subst heq
            obtain ⟨m, hm, hedits⟩ := h.of_cons_cons
            rw [if_pos rfl]
            exact (ih hedits).trans hm
          · rw [if_neg heq]
            cases h with
            | keep _ h => exact absurd rfl heq
            | replace _ _ h =>
                have hreplace := ih h
                omega
            | delete _ h =>
                have hdelete := ih h
                omega
            | insert _ h =>
                have hinsert := ih' h
                omega

/-- **The distance is the least number of changes** that turn one text into the other. -/
theorem editDistance_isLeast (as bs : List Char) :
    IsLeast {n | Edits as bs n} (editDistance as bs) :=
  ⟨edits_editDistance as bs, fun _ h => h.editDistance_le⟩

/-- **The distance is symmetric**, as changes can be changed back. -/
theorem editDistance_comm (as bs : List Char) : editDistance as bs = editDistance bs as := by
  have hback : {n | Edits as bs n} = {n | Edits bs as n} :=
    Set.ext fun _ => ⟨Edits.symm, Edits.symm⟩
  have hleast := editDistance_isLeast as bs
  rw [hback] at hleast
  exact hleast.unique (editDistance_isLeast bs as)

/-! ### Similarity -/

lemma similarityUnits_comm (a b : String) : similarityUnits a b = similarityUnits b a := by
  simp only [similarityUnits, max_comm a.length, editDistance_comm a.toList]

/-- Two texts are as similar either way. -/
theorem similarity_comm (a b : String) : similarity a b = similarity b a := by
  rw [similarity, similarity, similarityUnits_comm]

theorem isSimilar_comm (a b : String) : isSimilar a b = isSimilar b a := by
  rw [isSimilar, isSimilar, similarityUnits_comm]

end StyleTokens
