import StyleTokens.Check.Change
import StyleTokens.Proofs.Basic
import StyleTokens.Proofs.Distance

/-!
The two sides of a comparison.

* `TokenEntry.IsTagMap`: entries with distinct paths whose type tags are texts or null;
* `mem_missingPaths_iff`, `mem_tagChanges_iff`, `mem_renames_iff`: what a report says, by the entries
  of both sides;
* `TagChange.swap`, `Renaming.swap`: the same change seen from the other side;
* `compareEntries_swap`: to exchange the sides is to exchange them in the report.
-/

namespace StyleTokens

/-! ### Type tags -/

/-- Is the value null or a text, as type tags are? -/
def Json.isNullOrText : Json → Bool
  | .null => true
  | .str _ => true
  | _ => false

/-- For texts and null, equality does not depend on the side. -/
lemma Json.same_comm {x y : Json} (hx : x.isNullOrText = true) (hy : y.isNullOrText = true) :
    x.same y = y.same x := by
  cases x <;> cases hx <;> cases y <;> cases hy
  · rfl
  · rfl
  · rfl
  · rw [same_str, same_str, Bool.beq_comm]

namespace TokenEntry

/-- Entries with distinct paths whose type tags are texts or null. -/
structure IsTagMap (entries : List TokenEntry) : Prop where
  distinct : (entries.map TokenEntry.path).Nodup
  tags : ∀ r ∈ entries, r.tag.isNullOrText = true

variable {entries : List TokenEntry} {path : String} {r : TokenEntry}

/-- An entry is put in the place of the one with its path, or at the end. -/
lemma paths_put (entry : TokenEntry) (entries : List TokenEntry) :
    (put entry entries).map TokenEntry.path
      = if entry.path ∈ entries.map TokenEntry.path then entries.map TokenEntry.path
        else entries.map TokenEntry.path ++ [entry.path] := by
  refine keys_of_put (put entry) rfl (fun r rest => ?_) entries
  rw [put]
  split <;> rfl

/-- The entries of a document have distinct paths. -/
lemma nodup_ofFields (path : String) (fields : Fields) :
    ((ofFields path fields).map TokenEntry.path).Nodup :=
  nodup_keys_foldl paths_put _ List.nodup_nil

/-- The entry that is found is a member with the path. -/
lemma mem_of_find? (h : find? entries path = some r) : r ∈ entries ∧ r.path = path :=
  ⟨List.mem_of_find?_eq_some h, by simpa using List.find?_some h⟩

/-- The entry of a path is the one that has it. -/
lemma find?_eq_some_iff (h : (entries.map TokenEntry.path).Nodup) :
    find? entries path = some r ↔ r ∈ entries ∧ r.path = path :=
  find?_key_eq_some_iff h

/-- No entry is found exactly if none has the path. -/
lemma find?_eq_none_iff : find? entries path = none ↔ path ∉ entries.map TokenEntry.path := by
  simp [find?, List.find?_eq_none]

/-- The type tag of a path is a text or null, whether the path is there or not. -/
lemma IsTagMap.tagAt (h : IsTagMap entries) (path : String) :
    (tagAt entries path).isNullOrText = true := by
  rw [StyleTokens.tagAt]
  split
  · next r hr => exact h.tags r (mem_of_find? hr).1
  · rfl

end TokenEntry

/-! ### What a report says -/

section Report

variable {b c : List TokenEntry}

/-- A path is missing if one side has it and the other one does not. -/
lemma mem_missingPaths_iff {path : String} :
    path ∈ missingPaths b c ↔ path ∈ b.map TokenEntry.path ∧ path ∉ c.map TokenEntry.path := by
  rw [missingPaths, List.mem_filter, Option.isNone_iff_eq_none, TokenEntry.find?_eq_none_iff]

/-- A type tag has changed if both sides have the path with different type tags. -/
lemma mem_tagChanges_iff (hc : (c.map TokenEntry.path).Nodup) {change : TagChange} :
    change ∈ (compareEntries b c).tagChanges
      ↔ ∃ r ∈ b, ∃ s ∈ c, s.path = r.path ∧ r.tag.same s.tag = false ∧
        change = ⟨r.path, r.tag, s.tag⟩ := by
  rw [compareEntries, List.mem_filterMap]
  refine exists_congr fun r => and_congr_right fun _ => ?_
  constructor
  · intro h
    split at h
    · next s hs =>
        obtain ⟨hmem, hpath⟩ := TokenEntry.mem_of_find? hs
        split at h
        · cases h
        · next hsame =>
            exact ⟨s, hmem, hpath, Bool.eq_false_iff.mpr hsame, (Option.some.inj h).symm⟩
    · cases h
  · rintro ⟨s, hs, hpath, hsame, rfl⟩
    rw [(TokenEntry.find?_eq_some_iff hc).mpr ⟨hs, hpath⟩]
    simp [hsame]

/-- A path may have a new name if each side has one that the other one does not have, and both are
similar and have the same type tag. -/
lemma mem_renames_iff {suggestion : Renaming} :
    suggestion ∈ (compareEntries b c).renames
      ↔ (suggestion.source ∈ b.map TokenEntry.path ∧ suggestion.source ∉ c.map TokenEntry.path) ∧
        (suggestion.target ∈ c.map TokenEntry.path ∧ suggestion.target ∉ b.map TokenEntry.path) ∧
        (tagAt b suggestion.source).same (tagAt c suggestion.target) = true ∧
        isSimilar suggestion.source suggestion.target = true ∧
        suggestion.similarity = similarity suggestion.source suggestion.target := by
  obtain ⟨source, target, degree⟩ := suggestion
  rw [← mem_missingPaths_iff, ← mem_missingPaths_iff]
  simp only [compareEntries, List.mem_flatMap, List.mem_filterMap, Option.ite_none_right_eq_some,
    Option.some.injEq, Renaming.mk.injEq, Bool.and_eq_true]
  constructor
  · rintro ⟨old, hold, new, hnew, ⟨htag, hsimilar⟩, rfl, rfl, rfl⟩
    exact ⟨hold, hnew, htag, hsimilar, rfl⟩
  · rintro ⟨hold, hnew, htag, hsimilar, rfl⟩
    exact ⟨source, hold, target, hnew, ⟨htag, hsimilar⟩, rfl, rfl, rfl⟩

end Report

/-! ### The other side -/

/-- The change of a type tag seen from the other side. -/
def TagChange.swap (change : TagChange) : TagChange := ⟨change.path, change.new, change.old⟩

/-- A new name seen from the other side. -/
def Renaming.swap (suggestion : Renaming) : Renaming :=
  ⟨suggestion.target, suggestion.source, suggestion.similarity⟩

section Swap

variable {b c : List TokenEntry}

/-- A type tag that has changed one way has changed the other way. -/
lemma swap_mem_tagChanges (hb : TokenEntry.IsTagMap b) (hc : TokenEntry.IsTagMap c)
    {change : TagChange} (h : change ∈ (compareEntries c b).tagChanges) :
    change.swap ∈ (compareEntries b c).tagChanges := by
  obtain ⟨r, hr, s, hs, hpath, hsame, rfl⟩ := (mem_tagChanges_iff hb.distinct).mp h
  rw [Json.same_comm (hc.tags r hr) (hb.tags s hs)] at hsame
  refine (mem_tagChanges_iff hc.distinct).mpr ⟨s, hs, r, hr, hpath.symm, hsame, ?_⟩
  rw [TagChange.swap, hpath]

/-- A suggestion one way is one the other way. -/
lemma swap_mem_renames (hb : TokenEntry.IsTagMap b) (hc : TokenEntry.IsTagMap c)
    {suggestion : Renaming} (h : suggestion ∈ (compareEntries c b).renames) :
    suggestion.swap ∈ (compareEntries b c).renames := by
  obtain ⟨hsource, htarget, htag, hsimilar, hdegree⟩ := mem_renames_iff.mp h
  rw [Json.same_comm (hc.tagAt _) (hb.tagAt _)] at htag
  rw [isSimilar_comm] at hsimilar
  rw [similarity_comm] at hdegree
  exact mem_renames_iff.mpr ⟨htarget, hsource, htag, hsimilar, hdegree⟩

/-- **To exchange the sides is to exchange them in the report**: what was new is gone, what was gone
is new, in the same order, the same type tags have changed from the new one to the old one, and the
same names may be new ones for each other, with the same similarity. -/
theorem compareEntries_swap (hb : TokenEntry.IsTagMap b) (hc : TokenEntry.IsTagMap c) :
    (compareEntries c b).removed = (compareEntries b c).added ∧
    (compareEntries c b).added = (compareEntries b c).removed ∧
    (compareEntries c b).oldCount = (compareEntries b c).newCount ∧
    (compareEntries c b).newCount = (compareEntries b c).oldCount ∧
    (∀ change, change ∈ (compareEntries c b).tagChanges
      ↔ change.swap ∈ (compareEntries b c).tagChanges) ∧
    ∀ suggestion, suggestion ∈ (compareEntries c b).renames
      ↔ suggestion.swap ∈ (compareEntries b c).renames := by
  refine ⟨rfl, rfl, rfl, rfl, fun change => ?_, fun suggestion => ?_⟩
  -- seen from the other side twice, a change is the one that it was
  · constructor
    · exact swap_mem_tagChanges hb hc
    · intro h
      exact swap_mem_tagChanges hc hb h
  · constructor
    · exact swap_mem_renames hb hc
    · intro h
      exact swap_mem_renames hc hb h

/-- A gap, an ink and a size. -/
def oldScale : List TokenEntry :=
  TokenEntry.ofFields "" [
    ("gap_small", .obj [("value", .int 4), ("type", .str "dimension")]),
    ("ink", .obj [("value", .str "#000"), ("type", .str "color")]),
    ("size", .obj [("value", .int 8)])]

/-- The gap under a shorter name, the ink without a type tag, and a width. -/
def newScale : List TokenEntry :=
  TokenEntry.ofFields "" [
    ("gap_smal", .obj [("value", .int 4), ("type", .str "dimension")]),
    ("ink", .obj [("value", .str "#000")]),
    ("width", .obj [("value", .int 8)])]

/-- Forward, the ink loses its type tag and the gap may have the shorter name; backward, the ink gets
its type tag and the gap may have the longer name. -/
theorem compareEntries_swap_scales :
    TokenEntry.IsTagMap oldScale ∧ TokenEntry.IsTagMap newScale ∧
    (compareEntries oldScale newScale).removed = ["gap_small", "size"] ∧
    (compareEntries newScale oldScale).added = ["gap_small", "size"] ∧
    ⟨"ink", .str "color", .null⟩ ∈ (compareEntries oldScale newScale).tagChanges ∧
    ⟨"ink", .null, .str "color"⟩ ∈ (compareEntries newScale oldScale).tagChanges ∧
    ⟨"gap_small", "gap_smal", similarity "gap_small" "gap_smal"⟩
      ∈ (compareEntries oldScale newScale).renames ∧
    ⟨"gap_smal", "gap_small", similarity "gap_small" "gap_smal"⟩
      ∈ (compareEntries newScale oldScale).renames := by
  have hold : TokenEntry.IsTagMap oldScale := ⟨TokenEntry.nodup_ofFields _ _, by decide⟩
  have hnew : TokenEntry.IsTagMap newScale := ⟨TokenEntry.nodup_ofFields _ _, by decide⟩
  obtain ⟨-, hadded, -, -, hchanges, hrenames⟩ := compareEntries_swap hold hnew
  have hremoved : (compareEntries oldScale newScale).removed = ["gap_small", "size"] := by decide
  have hink : (compareEntries oldScale newScale).tagChanges = [⟨"ink", .str "color", .null⟩] := rfl
  have hgap : ⟨"gap_small", "gap_smal", similarity "gap_small" "gap_smal"⟩
      ∈ (compareEntries oldScale newScale).renames :=
    mem_renames_iff.mpr ⟨by decide, by decide, by decide, by decide +kernel, rfl⟩
  refine ⟨hold, hnew, hremoved, hadded.trans hremoved, by simp [hink], ?_, hgap,
    (hrenames _).mpr hgap⟩
  exact (hchanges _).mpr (hink ▸ List.mem_singleton_self _)

end Swap

end StyleTokens
