import StyleTokens.Build.Plan
import StyleTokens.Proofs.Basic

/-!
What the documents of plans are like.

* `Reads`: when a step of the reader succeeds, and when it ends at a list or an object in the place
  of a name; `Reads.bind` and `Reads.mapM` put steps together;
* `OutputSpec.IsEntry`, `Platform.IsEntry`, `BuildPlan.IsDocument`: the entries of files and of
  platforms, and documents of plans;
* `OutputSpec.MeetsComposite`, `Platform.MeetsComposite`, `BuildPlan.MeetsComposite`: those in which
  the format or the class of a file is a list or an object, and nothing before it is wrong;
* `BuildPlan.reads_nameAmong`, `BuildPlan.reads_stringsOf`, `BuildPlan.reads_optionsOf`,
  `BuildPlan.reads_fileOf`, `BuildPlan.reads_filesOf`: what is read up to the files of a platform.
-/

namespace StyleTokens

/-- Has the error a message about the document? Lists and objects in the place of names are not
dealt with. -/
def PlanError.isReported : PlanError → Bool
  | .compositeName _ => false
  | _ => true

/-! ### Steps of the reader -/

/-- A step of the reader succeeds exactly if its input is good, and ends at a list or an object in
the place of a name exactly if its input meets one. -/
structure Reads {α : Type} (x : Except PlanError α) (good : Prop) (meets : CompositeKey → Prop) :
    Prop where
  ok_iff : (∃ a, x = .ok a) ↔ good
  composite_iff : ∀ kind, x = .error (.compositeName kind) ↔ meets kind

section Reads

variable {α β : Type} {x : Except PlanError α} {good good' : Prop}
  {meets meets' : CompositeKey → Prop}

lemma reads_ok (a : α) : Reads (.ok a) True fun _ => False :=
  ⟨by simp, fun _ => by simp⟩

lemma reads_error {e : PlanError} (h : e.isReported = true) :
    Reads (.error e : Except PlanError α) False fun _ => False := by
  refine ⟨by simp, fun kind => iff_of_false ?_ id⟩
  rintro ⟨⟩
  cases h

/-- A list or an object in the place of a name. -/
lemma reads_composite (kind : CompositeKey) :
    Reads (.error (.compositeName kind) : Except PlanError α) False fun kind' => kind = kind' :=
  ⟨by simp, fun _ => by simp⟩

namespace Reads

lemma congr (h : Reads x good meets) (hgood : good ↔ good')
    (hmeets : ∀ kind, meets kind ↔ meets' kind) : Reads x good' meets' :=
  ⟨h.ok_iff.trans hgood, fun kind => (h.composite_iff kind).trans (hmeets kind)⟩

/-- The second of two steps counts if the first one succeeds. -/
lemma bind {f : α → Except PlanError β} (h : Reads x good meets)
    (h' : ∀ a, x = .ok a → Reads (f a) good' meets') :
    Reads (x >>= f) (good ∧ good') fun kind => meets kind ∨ good ∧ meets' kind := by
  refine ⟨?_, fun kind => ?_⟩
  · rw [← h.ok_iff]
    constructor
    · rintro ⟨b, hb⟩
      obtain ⟨a, ha, hb⟩ := exists_of_bind_eq_ok hb
      exact ⟨⟨a, ha⟩, (h' a ha).ok_iff.mp ⟨b, hb⟩⟩
    · rintro ⟨⟨a, rfl⟩, hgood⟩
      exact (h' a rfl).ok_iff.mpr hgood
  · rw [bind_eq_error_iff, h.composite_iff, ← h.ok_iff]
    refine or_congr_right ⟨?_, ?_⟩
    · rintro ⟨a, ha, hkind⟩
      exact ⟨⟨a, ha⟩, ((h' a ha).composite_iff kind).mp hkind⟩
    · rintro ⟨⟨a, ha⟩, hkind⟩
      exact ⟨a, ha, ((h' a ha).composite_iff kind).mpr hkind⟩

/-- Steps for the elements of a list end at the first element that is not good. -/
lemma mapM {γ : Type} {f : γ → Except PlanError β} {good : γ → Prop}
    {meets : CompositeKey → γ → Prop} (h : ∀ y, Reads (f y) (good y) fun kind => meets kind y)
    (ys : List γ) :
    Reads (ys.mapM f) (∀ y ∈ ys, good y) fun kind =>
      ∃ before y after, ys = before ++ y :: after ∧ (∀ z ∈ before, good z) ∧ meets kind y := by
  refine ⟨?_, fun kind => ?_⟩
  · rw [exists_mapM_eq_ok_iff]
    exact forall₂_congr fun y _ => (h y).ok_iff
  · simp only [mapM_eq_error_iff, (h _).ok_iff, (h _).composite_iff]

lemma map (h : Reads x good meets) (f : α → β) : Reads (x.map f) good meets := by
  obtain ⟨hok, hcomposite⟩ := h
  cases x with
  | ok a => exact ⟨by simpa [Except.map] using hok, by simpa [Except.map] using hcomposite⟩
  | error e => exact ⟨by simpa [Except.map] using hok, by simpa [Except.map] using hcomposite⟩

/-- A step that is left out for null. -/
lemma orNone {read : Json → Except PlanError α} {v : Json} (h : Reads (read v) good meets) :
    Reads (if v.isNull then pure none else (read v).map some) (v = .null ∨ good)
      fun kind => v ≠ .null ∧ meets kind := by
  by_cases hnull : v = .null
  · subst hnull
    exact (reads_ok none).congr (by simp) (by simp)
  · have hisNull : v.isNull = false := by
      cases v with
      | null => exact absurd rfl hnull
      | _ => rfl
    rw [hisNull, if_neg Bool.false_ne_true]
    exact (h.map some).congr (by simp [hnull]) (by simp [hnull])

end Reads

end Reads

/-! ### What entries are like -/

namespace Json

/-- The value is one of the names. -/
def IsAmong (names : List String) (v : Json) : Prop := ∃ s ∈ names, v = .str s

/-- The value is a list of strings. -/
def IsStrings (v : Json) : Prop := ∃ names : List String, v = .arr (names.map .str)

/-- The value is null or an object. -/
def IsOptions (v : Json) : Prop := v = .null ∨ ∃ fields, v = .obj fields

/-- The value is an object with entries of a kind. -/
def IsObjectWith (P : Fields → Prop) : Json → Prop
  | .obj raw => P raw
  | _ => False

/-- Is the value a list or an object? -/
def compositeKey? : Json → Option CompositeKey
  | .arr _ => some .list
  | .obj _ => some .object
  | _ => none

end Json

/-- The titles of the formats. -/
abbrev formatTitles : List String := OutputFormat.all.map OutputFormat.title

/-- The names of the classes of tokens. -/
abbrev filterNames : List String := TokenFilter.named.map (·.1)

/-- The entry has a place to go. -/
def OutputSpec.HasDestination (raw : Fields) : Prop :=
  ∃ s, s ≠ "" ∧ raw.getD "destination" = .str s

/-- The entry of a file: a place to go, a format, and maybe a class of tokens and options. -/
structure OutputSpec.IsEntry (raw : Fields) : Prop where
  destination : HasDestination raw
  format : (raw.getD "format").IsAmong formatTitles
  filter : raw.getD "filter" = .null ∨ (raw.getD "filter").IsAmong filterNames
  options : (raw.getD "options").IsOptions

/-- The format of the entry is a list or an object, or it is a format and the class is one; nothing
that is looked at before is wrong. -/
def OutputSpec.MeetsComposite (kind : CompositeKey) (raw : Fields) : Prop :=
  HasDestination raw ∧ ((raw.getD "format").compositeKey? = some kind ∨
    (raw.getD "format").IsAmong formatTitles ∧ (raw.getD "filter").compositeKey? = some kind)

/-- The entry lists transforms that exist, or none at all. -/
def Platform.HasTransforms (raw : Fields) : Prop :=
  ∃ titles : List String, (raw.get? "transforms").getD (.arr []) = .arr (titles.map .str) ∧
    ∀ title ∈ titles, (Transform.ofTitle? title).isSome

/-- The entry of a platform: files, and maybe transforms, sources and options. -/
structure Platform.IsEntry (raw : Fields) : Prop where
  transforms : HasTransforms raw
  files : ∃ items, items ≠ [] ∧ raw.getD "files" = .arr items ∧
    ∀ v ∈ items, v.IsObjectWith OutputSpec.IsEntry
  source : raw.getD "source" = .null ∨ (raw.getD "source").IsStrings
  options : (raw.getD "options").IsOptions

/-- One of the files of the entry has a list or an object for a name, and nothing that is looked at
before is wrong. -/
def Platform.MeetsComposite (kind : CompositeKey) (raw : Fields) : Prop :=
  HasTransforms raw ∧ ∃ before v after, raw.getD "files" = .arr (before ++ v :: after) ∧
    (∀ u ∈ before, u.IsObjectWith OutputSpec.IsEntry) ∧
    v.IsObjectWith (OutputSpec.MeetsComposite kind)

/-- The platform has sources: its own list, or else that of all platforms, is not empty. -/
def Platform.HasSources (common : Json) (raw : Fields) : Prop :=
  (if (raw.getD "source").isNull then common else raw.getD "source") ≠ .arr []

namespace BuildPlan

/-- The sources of all platforms. -/
def commonSource (raw : Fields) : Json := (raw.get? "source").getD (.arr [])

/-- The document of a plan: platforms with sources, and maybe sources for all platforms and
options. -/
structure IsDocument (raw : Fields) : Prop where
  platforms : ∃ entries, entries ≠ [] ∧ raw.getD "platforms" = .obj entries ∧
    ∀ e ∈ entries, e.2.IsObjectWith Platform.IsEntry ∧
      e.2.IsObjectWith (Platform.HasSources (commonSource raw))
  source : (commonSource raw).IsStrings
  options : (raw.getD "options").IsOptions

/-- One of the platforms has a file with a list or an object for a name, and nothing that is looked
at before is wrong. -/
def MeetsComposite (kind : CompositeKey) (raw : Fields) : Prop :=
  (commonSource raw).IsStrings ∧ ∃ before name v after,
    raw.getD "platforms" = .obj (before ++ (name, v) :: after) ∧
      (∀ e ∈ before, e.2.IsObjectWith Platform.IsEntry) ∧
      v.IsObjectWith (Platform.MeetsComposite kind)

/-! ### Names, strings and options -/

/-- A name is read exactly if it is one of the list. -/
lemma reads_nameAmong (names : List String) (unknown : Json → PlanError)
    (h : ∀ v, (unknown v).isReported = true) (v : Json) :
    Reads (nameAmong names unknown v) (v.IsAmong names)
      fun kind => v.compositeKey? = some kind := by
  have hunknown : ∀ v : Json, (∀ s, v ≠ .str s) → v.compositeKey? = none →
      Reads (.error (unknown v) : Except PlanError String) (v.IsAmong names)
        fun kind => v.compositeKey? = some kind := by
    intro v hstr hplain
    refine (reads_error (h v)).congr (iff_of_false id ?_) (by simp [hplain])
    rintro ⟨s, -, rfl⟩
    exact hstr s rfl
  cases v with
  | arr items =>
      exact (reads_composite .list).congr (by simp [Json.IsAmong]) (by simp [Json.compositeKey?])
  | obj fields =>
      exact (reads_composite .object).congr (by simp [Json.IsAmong]) (by simp [Json.compositeKey?])
  | str s =>
      have hread : nameAmong names unknown (.str s)
          = if names.contains s then .ok s else .error (unknown (.str s)) := rfl
      rw [hread]
      split
      · next hs =>
          exact (reads_ok s).congr (by simpa [Json.IsAmong] using hs) (by simp [Json.compositeKey?])
      · next hs =>
          exact (reads_error (h _)).congr (by simpa [Json.IsAmong] using hs)
            (by simp [Json.compositeKey?])
  | _ => exact hunknown _ (by simp) rfl

/-- The strings of a list are those that it is made of. -/
lemma mapM_str?_eq_some_iff {items : List Json} {names : List String} :
    items.mapM Json.str? = some names ↔ items = names.map .str := by
  induction items generalizing names with
  | nil => cases names <;> simp
  | cons v items ih =>
      cases v with
      | str s => cases names <;> simp [Json.str?, Option.bind_eq_some_iff, ih, and_comm]
      | _ => cases names <;> simp [Json.str?]

lemma stringsOf_eq_ok_iff {location : String} {v : Json} {names : List String} :
    stringsOf location v = .ok names ↔ v = .arr (names.map .str) := by
  cases v with
  | arr items =>
      rw [stringsOf, Json.arr.injEq, ← mapM_str?_eq_some_iff]
      cases items.mapM Json.str? <;> simp
  | _ => simp [stringsOf]

lemma arr_map_str_inj {names names' : List String}
    (h : Json.arr (names.map .str) = .arr (names'.map .str)) : names = names' :=
  List.map_injective_iff.mpr (fun _ _ hs => Json.str.inj hs) (Json.arr.inj h)

/-- Strings are read exactly from lists of them. -/
lemma reads_stringsOf (location : String) (v : Json) :
    Reads (stringsOf location v) v.IsStrings fun _ => False := by
  refine ⟨by simp only [stringsOf_eq_ok_iff, Json.IsStrings], fun kind => iff_of_false ?_ id⟩
  rw [stringsOf.eq_def]
  split
  · split <;> simp
  · simp

/-- Options are read exactly from null and from objects. -/
lemma reads_optionsOf (location : String) (v : Json) :
    Reads (optionsOf location v) v.IsOptions fun _ => False := by
  cases v with
  | null => exact (reads_ok []).congr (by simp [Json.IsOptions]) fun _ => Iff.rfl
  | obj fields => exact (reads_ok fields).congr (by simp [Json.IsOptions]) fun _ => Iff.rfl
  | _ => exact (reads_error rfl).congr (by simp [Json.IsOptions]) fun _ => Iff.rfl

/-! ### Files -/

/-- The entry of a file that has a place to go, step by step. -/
lemma fileOf_obj (location : String) {raw : Fields} (hplace : OutputSpec.HasDestination raw) :
    ∃ destination, fileOf location (.obj raw)
      = nameAmong formatTitles (.unknownFormat location) (raw.getD "format") >>= fun format =>
        (if (raw.getD "filter").isNull then pure none else
          (nameAmong filterNames (.unknownFilter location) (raw.getD "filter")).map some) >>=
          fun filter => optionsOf location (raw.getD "options") >>= fun options =>
          .ok { destination, format, filter, options } := by
  obtain ⟨s, hs, hplace⟩ := hplace
  refine ⟨s, ?_⟩
  have hread : ((raw.getD "destination").str?).getD "" = s := by
    rw [hplace]
    rfl
  rw [fileOf.eq_def]
  dsimp only
  rw [hread, if_neg hs]
  refine bind_congr fun format => ?_
  split <;> rfl

/-- An entry without a place to go is no file. -/
lemma fileOf_obj_error (location : String) {raw : Fields}
    (hplace : ¬ OutputSpec.HasDestination raw) :
    fileOf location (.obj raw) = .error (.noDestination location) := by
  have hread : ((raw.getD "destination").str?).getD "" = "" := by
    by_contra hne
    cases hplaced : raw.getD "destination" with
    | str s =>
        rw [hplaced] at hne
        exact hplace ⟨s, hne, hplaced⟩
    | _ =>
        rw [hplaced] at hne
        exact hne rfl
  rw [fileOf.eq_def]
  dsimp only
  rw [if_pos hread]
  rfl

/-- A file is read exactly from an entry of one. -/
lemma reads_fileEntry (location : String) (raw : Fields) :
    Reads (fileOf location (.obj raw)) (OutputSpec.IsEntry raw)
      fun kind => OutputSpec.MeetsComposite kind raw := by
  by_cases hplace : OutputSpec.HasDestination raw
  · obtain ⟨destination, hread⟩ := fileOf_obj location hplace
    have hformat := reads_nameAmong formatTitles (.unknownFormat location) (fun _ => rfl)
      (raw.getD "format")
    have hfilter := (reads_nameAmong filterNames (.unknownFilter location) (fun _ => rfl)
      (raw.getD "filter")).orNone
    have hoptions := reads_optionsOf location (raw.getD "options")
    rw [hread]
    refine (hformat.bind fun format _ => hfilter.bind fun filter _ =>
      hoptions.bind fun options _ => reads_ok _).congr ?_ fun kind => ?_
    · exact ⟨fun ⟨hformat, hfilter, hoptions, _⟩ => ⟨hplace, hformat, hfilter, hoptions⟩,
        fun h => ⟨h.format, h.filter, h.options, trivial⟩⟩
    · have hnull : (raw.getD "filter").compositeKey? = some kind → raw.getD "filter" ≠ .null := by
        intro hkind hnull
        rw [hnull] at hkind
        cases hkind
      simp only [OutputSpec.MeetsComposite, hplace, true_and, and_false, or_false]
      exact or_congr_right (and_congr_right fun _ => ⟨And.right, fun h => ⟨hnull h, h⟩⟩)
  · rw [fileOf_obj_error location hplace]
    exact (reads_error rfl).congr (iff_of_false id fun h => hplace h.destination)
      fun kind => iff_of_false id fun h => hplace h.1

lemma reads_fileOf (location : String) (v : Json) :
    Reads (fileOf location v) (v.IsObjectWith OutputSpec.IsEntry)
      fun kind => v.IsObjectWith (OutputSpec.MeetsComposite kind) := by
  cases v with
  | obj raw => exact reads_fileEntry location raw
  | _ => exact reads_error rfl

/-- The files of a list are read up to the first entry that is none. -/
lemma reads_filesOf (location : String) (items : List Json) :
    Reads (filesOf location items) (∀ v ∈ items, v.IsObjectWith OutputSpec.IsEntry) fun kind =>
      ∃ before v after, items = before ++ v :: after ∧
        (∀ u ∈ before, u.IsObjectWith OutputSpec.IsEntry) ∧
        v.IsObjectWith (OutputSpec.MeetsComposite kind) := by
  have hitems : items.zipIdx.map Prod.fst = items := List.zipIdx_map_fst 0 items
  refine (Reads.mapM (fun _ => reads_fileOf _ _) items.zipIdx).congr ?_ fun kind => ?_
  · conv_rhs => rw [← hitems, List.forall_mem_map]
  · constructor
    · rintro ⟨before, x, after, hsplit, hbefore, hx⟩
      refine ⟨before.map Prod.fst, x.1, after.map Prod.fst, ?_, List.forall_mem_map.mpr hbefore, hx⟩
      rw [← hitems, hsplit, List.map_append, List.map_cons]
    · rintro ⟨before, v, after, hsplit, hbefore, hv⟩
      rw [← hitems] at hsplit
      obtain ⟨front, back, hfront, rfl, hback⟩ := List.map_eq_append_iff.mp hsplit
      obtain ⟨x, rest, rfl, rfl, -⟩ := List.map_eq_cons_iff.mp hback
      exact ⟨front, x, rest, hfront, List.forall_mem_map.mp hbefore, hv⟩

end BuildPlan

end StyleTokens
