import Mathlib.Data.List.Perm.Basic
import Mathlib.Data.List.Perm.Subperm
import StyleTokens.Proofs.Comparison

/-!
Which changes break what uses the tokens.

* `TokenEntry.KeptBy`: another set has every path of a set, with the same type tag; this is reflexive
  and transitive;
* `exitCode_eq_zero_iff`: a change is not breaking exactly if the later set keeps the earlier one;
* `unchangedPaths`, `isPartition_changes`: every path of the baseline is removed, has another type tag
  or is unchanged, and is listed once;
* `length_missingPaths`: both sides have the same number of paths that are not missing on the other;
* `nonbreaking_preorder`: all of it together.
-/

namespace StyleTokens

/-- For texts and null, equality by value is equality. -/
lemma Json.same_iff_eq {x y : Json} (hx : x.isNullOrText = true) (hy : y.isNullOrText = true) :
    x.same y = true ↔ x = y := by
  cases x <;> cases hx <;> cases y <;> cases hy
  · simp
  · simp [same, samePart]
  · simp [same, samePart]
  · simp

/-! ### Sets that keep another one -/

namespace TokenEntry

variable {a b c : List TokenEntry}

/-- The second set has every path of the first one, with the same type tag. -/
def KeptBy (b c : List TokenEntry) : Prop := ∀ r ∈ b, ∃ s ∈ c, s.path = r.path ∧ s.tag = r.tag

lemma KeptBy.refl (b : List TokenEntry) : KeptBy b b := fun r hr => ⟨r, hr, rfl, rfl⟩

lemma KeptBy.trans (h : KeptBy a b) (h' : KeptBy b c) : KeptBy a c := by
  intro r hr
  obtain ⟨s, hs, hpath, htag⟩ := h r hr
  obtain ⟨u, hu, hpath', htag'⟩ := h' s hs
  exact ⟨u, hu, hpath'.trans hpath, htag'.trans htag⟩

end TokenEntry

open TokenEntry

section Breaking

variable {b c : List TokenEntry}

/-- The exit code is zero if nothing is removed and no type tag is another one. -/
lemma ChangeReport.exitCode_eq_zero_iff_nil (report : ChangeReport) :
    report.exitCode = 0 ↔ report.removed = [] ∧ report.tagChanges = [] := by
  rw [exitCode, breaksUses]
  cases report.removed <;> cases report.tagChanges <;> simp

/-- **A change is not breaking exactly if the later set keeps the earlier one.** -/
theorem exitCode_eq_zero_iff (hb : IsTagMap b) (hc : IsTagMap c) :
    (compareEntries b c).exitCode = 0 ↔ KeptBy b c := by
  rw [ChangeReport.exitCode_eq_zero_iff_nil, List.eq_nil_iff_forall_not_mem,
    List.eq_nil_iff_forall_not_mem]
  constructor
  · rintro ⟨hremoved, hchanges⟩ r hr
    have hpath : r.path ∈ c.map TokenEntry.path := by
      by_contra hmissing
      exact hremoved r.path (mem_missingPaths_iff.mpr ⟨List.mem_map_of_mem hr, hmissing⟩)
    obtain ⟨s, hs, hsr⟩ := List.mem_map.mp hpath
    refine ⟨s, hs, hsr, ?_⟩
    by_contra htag
    have hsame : r.tag.same s.tag = false := by
      rw [← Bool.not_eq_true, Json.same_iff_eq (hb.tags r hr) (hc.tags s hs)]
      exact fun h => htag h.symm
    exact hchanges _ ((mem_tagChanges_iff hc.distinct).mpr ⟨r, hr, s, hs, hsr, hsame, rfl⟩)
  · intro hkept
    refine ⟨fun path hpath => ?_, fun change hchange => ?_⟩
    · obtain ⟨hold, hnew⟩ := mem_missingPaths_iff.mp hpath
      obtain ⟨r, hr, rfl⟩ := List.mem_map.mp hold
      obtain ⟨s, hs, hsr, -⟩ := hkept r hr
      exact hnew (hsr ▸ List.mem_map_of_mem hs)
    · obtain ⟨r, hr, s, hs, hsr, hsame, -⟩ := (mem_tagChanges_iff hc.distinct).mp hchange
      obtain ⟨s', hs', hsr', htag⟩ := hkept r hr
      -- paths are distinct, so the entry that keeps the type tag is the one that is compared
      obtain rfl : s' = s := List.inj_on_of_nodup_map hc.distinct hs' hs (hsr'.trans hsr.symm)
      rw [(Json.same_iff_eq (hb.tags r hr) (hc.tags _ hs)).mpr htag.symm] at hsame
      cases hsame

/-- A set compared with itself has no changes. -/
lemma compareEntries_self (hb : IsTagMap b) :
    compareEntries b b = ⟨b.length, b.length, [], [], [], []⟩ := by
  have hzero := (exitCode_eq_zero_iff hb hb).mpr (KeptBy.refl b)
  obtain ⟨hremoved, hchanges⟩ := (ChangeReport.exitCode_eq_zero_iff_nil _).mp hzero
  have hmissing : missingPaths b b = [] := hremoved
  have hreport : compareEntries b b = ⟨b.length, b.length, missingPaths b b, missingPaths b b,
      (compareEntries b b).tagChanges, (compareEntries b b).renames⟩ := rfl
  have hrenames : (compareEntries b b).renames = [] := by
    rw [compareEntries, hmissing]
    rfl
  rw [hreport, hmissing, hchanges, hrenames]

end Breaking

/-! ### Every path once -/

/-- The parts hold the elements of the list, each once, and every part has them in the order of the
list. -/
structure IsPartition {α : Type} (parts : List (List α)) (xs : List α) : Prop where
  perm : parts.flatten.Perm xs
  nodup : parts.flatten.Nodup
  sublist : ∀ part ∈ parts, part.Sublist xs

/-- The paths of the first set that the second one has with the same type tag. -/
def unchangedPaths (b c : List TokenEntry) : List String :=
  (b.filter fun r => (find? c r.path).any fun s => r.tag.same s.tag).map TokenEntry.path

section Partition

variable {b c : List TokenEntry}

/-- A path is unchanged if both sides have it with one type tag. -/
lemma mem_unchangedPaths_iff (hb : IsTagMap b) (hc : IsTagMap c) {path : String} :
    path ∈ unchangedPaths b c
      ↔ ∃ r ∈ b, ∃ s ∈ c, r.path = path ∧ s.path = path ∧ s.tag = r.tag := by
  rw [unchangedPaths, List.mem_map]
  constructor
  · rintro ⟨r, hr, rfl⟩
    obtain ⟨hr, hany⟩ := List.mem_filter.mp hr
    obtain ⟨s, hfind, hsame⟩ := (Option.any_eq_true _ _).mp hany
    obtain ⟨hs, hpath⟩ := mem_of_find? hfind
    exact ⟨r, hr, s, hs, rfl, hpath,
      ((Json.same_iff_eq (hb.tags r hr) (hc.tags s hs)).mp hsame).symm⟩
  · rintro ⟨r, hr, s, hs, rfl, hpath, htag⟩
    refine ⟨r, List.mem_filter.mpr ⟨hr, ?_⟩, rfl⟩
    rw [(find?_eq_some_iff hc.distinct).mpr ⟨hs, hpath⟩]
    exact (Json.same_iff_eq (hb.tags r hr) (hc.tags s hs)).mpr htag.symm

/-- The paths with other type tags are those of some of the entries, in order. -/
lemma paths_tagChanges (b c : List TokenEntry) :
    (compareEntries b c).tagChanges.map TagChange.path
      = (b.filter fun r => (find? c r.path).any fun s => !r.tag.same s.tag).map
          TokenEntry.path := by
  rw [compareEntries]
  induction b with
  | nil => rfl
  | cons r b ih =>
      rw [List.filterMap_cons, List.filter_cons]
      cases find? c r.path with
      | none => exact ih
      | some s =>
          cases hsame : r.tag.same s.tag with
          | true => simpa [hsame] using ih
          | false => simpa [hsame] using ih

lemma removed_eq_map_filter (b c : List TokenEntry) :
    (compareEntries b c).removed
      = (b.filter fun r => (find? c r.path).isNone).map TokenEntry.path := by
  rw [compareEntries, missingPaths, List.filter_map]
  rfl

/-- **Every path of the baseline is removed, has another type tag or is unchanged**, and is listed
once, in the order of the baseline. -/
theorem isPartition_changes (hb : (b.map TokenEntry.path).Nodup) (c : List TokenEntry) :
    IsPartition [(compareEntries b c).removed, (compareEntries b c).tagChanges.map TagChange.path,
      unchangedPaths b c] (b.map TokenEntry.path) := by
  have hperm : [(compareEntries b c).removed, (compareEntries b c).tagChanges.map TagChange.path,
      unchangedPaths b c].flatten.Perm (b.map TokenEntry.path) := by
    rw [removed_eq_map_filter, paths_tagChanges, unchangedPaths, List.flatten_cons,
      List.flatten_cons, List.flatten_cons, List.flatten_nil, List.append_nil, ← List.map_append,
      ← List.map_append]
    refine List.Perm.map _ ?_
    -- the paths that are there are those with another type tag and those with the same one
    have hthere : (b.filter (fun r => (find? c r.path).any fun s => !r.tag.same s.tag) ++
        b.filter fun r => (find? c r.path).any fun s => r.tag.same s.tag).Perm
        (b.filter fun r => !(find? c r.path).isNone) := by
      refine List.Perm.trans (.of_eq ?_) (List.filter_append_perm
        (fun r => (find? c r.path).any fun s => !r.tag.same s.tag)
        (b.filter fun r => !(find? c r.path).isNone))
      rw [List.filter_filter, List.filter_filter]
      congr 1 <;> refine List.filter_congr fun r _ => ?_ <;> cases find? c r.path <;> simp
    exact (hthere.append_left _).trans (List.filter_append_perm _ b)
  refine ⟨hperm, hperm.nodup_iff.mpr hb, ?_⟩
  intro part hpart
  have hsublist : ∀ p : TokenEntry → Bool,
      ((b.filter p).map TokenEntry.path).Sublist (b.map TokenEntry.path) :=
    fun p => List.filter_sublist.map _
  simp only [List.mem_cons, List.not_mem_nil, or_false] at hpart
  obtain rfl | rfl | rfl := hpart
  · rw [removed_eq_map_filter]
    exact hsublist _
  · rw [paths_tagChanges]
    exact hsublist _
  · exact hsublist _

/-- Each side has as many paths beside the missing ones as the other. -/
lemma length_missingPaths (hb : (b.map TokenEntry.path).Nodup) (hc : (c.map TokenEntry.path).Nodup) :
    b.length + (missingPaths c b).length = c.length + (missingPaths b c).length := by
  have hthere : ∀ xs ys : List TokenEntry, xs.length = (missingPaths xs ys).length +
      ((xs.map TokenEntry.path).filter fun p => !(find? ys p).isNone).length := by
    intro xs ys
    rw [missingPaths, ← List.length_eq_length_filter_add, List.length_map]
  have hfound : ∀ (xs : List TokenEntry) (path : String),
      (!(find? xs path).isNone) = true ↔ path ∈ xs.map TokenEntry.path := by
    intro xs path
    rw [Bool.not_eq_true', ← Bool.not_eq_true, Option.isNone_iff_eq_none, find?_eq_none_iff,
      not_not]
  have hcommon : ((b.map TokenEntry.path).filter fun p => !(find? c p).isNone).Perm
      ((c.map TokenEntry.path).filter fun p => !(find? b p).isNone) := by
    refine (List.perm_ext_iff_of_nodup (hb.filter _) (hc.filter _)).mpr fun path => ?_
    rw [List.mem_filter, List.mem_filter, hfound, hfound]
    exact and_comm
  have h₁ := hthere b c
  have h₂ := hthere c b
  have h₃ := hcommon.length_eq
  omega

end Partition

/-! ### Releases -/

section Releases

variable {a b c : List TokenEntry}

/-- **Compatibility is a preorder**, told by the exit code: it is zero exactly if every path of the
baseline is there with the same type tag. A set compared with itself has no changes, and a change in
two steps that are not breaking is not breaking. Removed, changed and unchanged paths are a partition
of the baseline, and without the removed and the added ones both sides have as many. -/
theorem nonbreaking_preorder (ha : IsTagMap a) (hb : IsTagMap b) (hc : IsTagMap c) :
    ((compareEntries b c).exitCode = 0
      ↔ ∀ r ∈ b, ∃ s ∈ c, s.path = r.path ∧ s.tag = r.tag) ∧
    compareEntries b b = ⟨b.length, b.length, [], [], [], []⟩ ∧
    (compareEntries b b).exitCode = 0 ∧
    ((compareEntries a b).exitCode = 0 → (compareEntries b c).exitCode = 0 →
      (compareEntries a c).exitCode = 0) ∧
    IsPartition [(compareEntries b c).removed, (compareEntries b c).tagChanges.map TagChange.path,
      unchangedPaths b c] (b.map TokenEntry.path) ∧
    (∀ path, path ∈ unchangedPaths b c
      ↔ ∃ r ∈ b, ∃ s ∈ c, r.path = path ∧ s.path = path ∧ s.tag = r.tag) ∧
    ((compareEntries b c).oldCount : ℤ) - (compareEntries b c).removed.length
      = (compareEntries b c).newCount - (compareEntries b c).added.length := by
  refine ⟨exitCode_eq_zero_iff hb hc, compareEntries_self hb,
    (exitCode_eq_zero_iff hb hb).mpr (KeptBy.refl b), fun hab hbc => ?_,
    isPartition_changes hb.distinct c, fun path => mem_unchangedPaths_iff hb hc, ?_⟩
  · have hkept := (exitCode_eq_zero_iff ha hb).mp hab
    exact (exitCode_eq_zero_iff ha hc).mpr (hkept.trans ((exitCode_eq_zero_iff hb hc).mp hbc))
  · have hlength := length_missingPaths hb.distinct hc.distinct
    change (b.length : ℤ) - (missingPaths b c).length = c.length - (missingPaths c b).length
    omega

/-- A gap and an ink. -/
def firstRelease : List TokenEntry :=
  TokenEntry.ofFields "" [
    ("gap", .obj [("value", .int 4), ("type", .str "dimension")]),
    ("ink", .obj [("value", .str "#000")])]

/-- The same tokens in another order, with another gap, and a size. -/
def secondRelease : List TokenEntry :=
  TokenEntry.ofFields "" [
    ("ink", .obj [("value", .str "#000")]),
    ("size", .obj [("value", .int 8), ("type", .str "dimension")]),
    ("gap", .obj [("value", .int 6), ("type", .str "dimension")])]

/-- A width before all of them. -/
def thirdRelease : List TokenEntry :=
  TokenEntry.put ⟨"width", .int 2, .null⟩ [] ++ secondRelease

/-- The ink has a type tag, the size is gone, and a weight is new. -/
def brokenRelease : List TokenEntry :=
  TokenEntry.ofFields "" [
    ("gap", .obj [("value", .int 6), ("type", .str "dimension")]),
    ("weight", .obj [("value", .int 400)]),
    ("ink", .obj [("value", .str "#000"), ("type", .str "color")])]

/-- Two releases that only add tokens are not breaking together. One that breaks has one removed, one
changed and one unchanged path, each in its place of the three of the baseline. -/
theorem nonbreaking_preorder_releases :
    IsTagMap firstRelease ∧ IsTagMap secondRelease ∧ IsTagMap thirdRelease ∧
    IsTagMap brokenRelease ∧
    (compareEntries firstRelease secondRelease).exitCode = 0 ∧
    (compareEntries secondRelease thirdRelease).exitCode = 0 ∧
    (compareEntries firstRelease thirdRelease).exitCode = 0 ∧
    (compareEntries secondRelease brokenRelease).exitCode = 1 ∧
    (compareEntries secondRelease brokenRelease).removed = ["size"] ∧
    (compareEntries secondRelease brokenRelease).tagChanges.map TagChange.path = ["ink"] ∧
    unchangedPaths secondRelease brokenRelease = ["gap"] ∧
    IsPartition [["size"], ["ink"], ["gap"]] ["ink", "size", "gap"] := by
  have hfirst : IsTagMap firstRelease := ⟨nodup_ofFields _ _, by decide⟩
  have hsecond : IsTagMap secondRelease := ⟨nodup_ofFields _ _, by decide⟩
  have hthird : IsTagMap thirdRelease := ⟨by decide, by decide⟩
  have hbroken : IsTagMap brokenRelease := ⟨nodup_ofFields _ _, by decide⟩
  have hadds : (compareEntries firstRelease secondRelease).exitCode = 0 := by decide
  have hadds' : (compareEntries secondRelease thirdRelease).exitCode = 0 := by decide
  obtain ⟨-, -, -, htrans, -⟩ := nonbreaking_preorder hfirst hsecond hthird
  obtain ⟨-, -, -, -, hpartition, -⟩ := nonbreaking_preorder hfirst hsecond hbroken
  exact ⟨hfirst, hsecond, hthird, hbroken, hadds, hadds', htrans hadds hadds', by decide, by decide,
    by decide, by decide, hpartition⟩

end Releases

end StyleTokens
