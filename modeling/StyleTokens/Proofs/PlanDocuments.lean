import StyleTokens.Proofs.PlanGrammar

/-!
Which documents are read as plans.

* `BuildPlan.platformOf_obj`, `BuildPlan.ofFields_obj`: the entry of a platform and the document of
  a plan, step by step;
* `BuildPlan.reads_platformOf`, `BuildPlan.reads_ofFields`: platforms are read exactly from entries
  of platforms, and plans exactly from documents of plans;
* `BuildPlan.ofFields_reported_iff`: an object is the document of a plan, or it has an error with a
  message about it, or it meets a list or an object in the place of a name.
  `BuildPlan.listed_format_unreported` has a list as a format.
-/

namespace StyleTokens

namespace BuildPlan

/-! ### Platforms -/

/-- The transforms of an entry. -/
def transformsOf (location : String) (raw : Fields) : Except PlanError (List String) :=
  stringsOf (location ++ ".transforms") ((raw.get? "transforms").getD (.arr [])) >>= fun titles =>
    if (titles.filter fun t => (Transform.ofTitle? t).isNone) ≠ [] then
      .error (.unknownTransforms location (titles.filter fun t => (Transform.ofTitle? t).isNone))
    else .ok titles

/-- The files of an entry. -/
def filesIn (location : String) (raw : Fields) : Except PlanError (List OutputSpec) :=
  match raw.getD "files" with
  | .arr (first :: rest) => filesOf location (first :: rest)
  | _ => .error (.noFiles location)

lemma filesIn_cons {location : String} {raw : Fields} {first : Json} {rest : List Json}
    (h : raw.getD "files" = .arr (first :: rest)) :
    filesIn location raw = filesOf location (first :: rest) := by
  rw [filesIn, h]

lemma filesIn_error {location : String} {raw : Fields}
    (h : ∀ first rest, raw.getD "files" ≠ .arr (first :: rest)) :
    filesIn location raw = .error (.noFiles location) := by
  rw [filesIn]
  split
  · next first rest hfiles => exact absurd hfiles (h first rest)
  · rfl

/-- The sources that an entry has of its own. -/
def ownSource (location : String) (raw : Fields) : Except PlanError (Option (List String)) :=
  if (raw.getD "source").isNull then pure none
  else (stringsOf (location ++ ".source") (raw.getD "source")).map some

/-- The entry of a platform, step by step. -/
lemma platformOf_obj (name : String) (raw : Fields) :
    platformOf name (.obj raw) = (transformsOf (platformLocation name) raw >>= fun transforms =>
      filesIn (platformLocation name) raw >>= fun files =>
      ownSource (platformLocation name) raw >>= fun source =>
      optionsOf (platformLocation name) (raw.getD "options") >>= fun options =>
      .ok { name, transforms, files, source, options,
            buildPath := ((raw.get? "build_path").map Json.plain).getD "" }) := by
  rw [platformOf.eq_def, transformsOf, bind_assoc]
  dsimp only
  refine bind_congr fun transforms => ?_
  split
  · rfl
  · rw [ok_bind]
    split
    · next first rest hfiles =>
        rw [filesIn_cons hfiles]
        refine bind_congr fun files => ?_
        rw [ownSource]
        split <;> rfl
    · next hfiles =>
        rw [filesIn_error hfiles]
        rfl

/-- Transforms are read exactly if they are titles that exist. -/
lemma reads_transformsOf (location : String) (raw : Fields) :
    Reads (transformsOf location raw) (Platform.HasTransforms raw) fun _ => False := by
  let v := (raw.get? "transforms").getD (.arr [])
  let known : Prop := ∀ titles : List String, v = .arr (titles.map .str) →
    ∀ title ∈ titles, (Transform.ofTitle? title).isSome
  have hread : Reads (transformsOf location raw) (v.IsStrings ∧ known)
      fun _ => False ∨ v.IsStrings ∧ False := by
    refine (reads_stringsOf _ v).bind fun titles htitles => ?_
    have hv : v = .arr (titles.map .str) := stringsOf_eq_ok_iff.mp htitles
    have hunknown : (titles.filter fun t => (Transform.ofTitle? t).isNone) ≠ [] ↔
        ¬ ∀ title ∈ titles, (Transform.ofTitle? title).isSome := by
      simp [List.filter_eq_nil_iff, Option.isSome_iff_ne_none]
    split
    · next h => exact (reads_error rfl).congr (iff_of_false id fun hall =>
        hunknown.mp h (hall titles hv)) fun _ => Iff.rfl
    · next h =>
        refine (reads_ok titles).congr (iff_of_true trivial fun titles' hv' => ?_) fun _ => Iff.rfl
        rw [arr_map_str_inj (hv'.symm.trans hv)]
        exact not_not.mp (mt hunknown.mpr h)
  refine hread.congr ⟨?_, ?_⟩ fun _ => by simp
  · rintro ⟨⟨titles, htitles⟩, hall⟩
    exact ⟨titles, htitles, hall titles htitles⟩
  · rintro ⟨titles, htitles, hall⟩
    refine ⟨⟨titles, htitles⟩, fun titles' htitles' => ?_⟩
    rw [arr_map_str_inj (htitles'.symm.trans htitles)]
    exact hall

/-- Files are read exactly from a list of entries that is not empty. -/
lemma reads_filesIn (location : String) (raw : Fields) :
    Reads (filesIn location raw)
      (∃ items, items ≠ [] ∧ raw.getD "files" = .arr items ∧
        ∀ v ∈ items, v.IsObjectWith OutputSpec.IsEntry)
      fun kind => ∃ before v after, raw.getD "files" = .arr (before ++ v :: after) ∧
        (∀ u ∈ before, u.IsObjectWith OutputSpec.IsEntry) ∧
        v.IsObjectWith (OutputSpec.MeetsComposite kind) := by
  by_cases hfiles : ∃ first rest, raw.getD "files" = .arr (first :: rest)
  · obtain ⟨first, rest, hfiles⟩ := hfiles
    rw [filesIn_cons hfiles]
    exact (reads_filesOf location (first :: rest)).congr (by simp [hfiles])
      fun kind => by simp [hfiles]
  · simp only [not_exists] at hfiles
    rw [filesIn_error hfiles]
    refine (reads_error rfl).congr (iff_of_false id ?_) fun kind => iff_of_false id ?_
    · rintro ⟨items, hne, hitems, -⟩
      obtain ⟨first, rest, rfl⟩ := List.exists_cons_of_ne_nil hne
      exact hfiles first rest hitems
    · rintro ⟨before, v, after, hitems, -⟩
      obtain ⟨first, rest, hcons⟩ := List.exists_cons_of_ne_nil
        (List.append_ne_nil_of_right_ne_nil before (List.cons_ne_nil v after))
      exact hfiles first rest (hcons ▸ hitems)

lemma reads_ownSource (location : String) (raw : Fields) :
    Reads (ownSource location raw)
      (raw.getD "source" = .null ∨ (raw.getD "source").IsStrings) fun _ => False :=
  (reads_stringsOf _ _).orNone.congr Iff.rfl fun _ => iff_of_false And.right id

/-- A platform is read exactly from an entry of one. -/
lemma reads_platformEntry (name : String) (raw : Fields) :
    Reads (platformOf name (.obj raw)) (Platform.IsEntry raw)
      fun kind => Platform.MeetsComposite kind raw := by
  rw [platformOf_obj]
  refine ((reads_transformsOf _ raw).bind fun _ _ => (reads_filesIn _ raw).bind fun _ _ =>
    (reads_ownSource _ raw).bind fun _ _ => (reads_optionsOf _ _).bind fun _ _ =>
    reads_ok _).congr ?_ fun kind => ?_
  · exact ⟨fun ⟨htransforms, hfiles, hsource, hoptions, _⟩ =>
      ⟨htransforms, hfiles, hsource, hoptions⟩,
      fun h => ⟨h.transforms, h.files, h.source, h.options, trivial⟩⟩
  · simp only [Platform.MeetsComposite, false_or, and_false, or_false]

lemma reads_platformOf (name : String) (v : Json) :
    Reads (platformOf name v) (v.IsObjectWith Platform.IsEntry)
      fun kind => v.IsObjectWith (Platform.MeetsComposite kind) := by
  cases v with
  | obj raw => exact reads_platformEntry name raw
  | _ => exact reads_error rfl

/-! ### Plans -/

/-- Platforms must have sources. -/
def checkSources (source : List String) (platforms : List Platform) : Except PlanError Unit :=
  match platforms.find? fun p => p.source.getD source == [] with
  | some p => .error (.noSources (platformLocation p.name))
  | none => .ok ()

/-- The document of a plan with platforms, step by step. -/
lemma ofFields_obj {raw entries : Fields} (hne : entries ≠ [])
    (h : raw.getD "platforms" = .obj entries) :
    ofFields raw = (stringsOf "source" (commonSource raw) >>= fun source =>
      entries.mapM (fun e => platformOf e.1 e.2) >>= fun platforms =>
      checkSources source platforms >>= fun _ =>
      optionsOf "config" (raw.getD "options") >>= fun options =>
      .ok { source, platforms, options := baseOptions raw options }) := by
  obtain ⟨first, rest, rfl⟩ := List.exists_cons_of_ne_nil hne
  rw [ofFields.eq_def, h]
  refine bind_congr fun source => bind_congr fun platforms => ?_
  rw [checkSources]
  cases platforms.find? fun p => p.source.getD source == [] <;> rfl

lemma ofFields_error {raw : Fields}
    (h : ∀ entries, entries ≠ [] → raw.getD "platforms" ≠ .obj entries) :
    ofFields raw = .error .noPlatforms := by
  rw [ofFields.eq_def]
  split
  · next first rest hentries => exact absurd hentries (h _ (List.cons_ne_nil first rest))
  · rfl

/-- A platform that is read has sources exactly if its entry says so. -/
lemma source_of_platformOf {name : String} {v : Json} {p : Platform} (h : platformOf name v = .ok p)
    (source : List String) : p.source.getD source ≠ [] ↔
      v.IsObjectWith (Platform.HasSources (.arr (source.map .str))) := by
  cases v with
  | obj raw =>
      rw [platformOf_obj] at h
      obtain ⟨transforms, -, h⟩ := exists_of_bind_eq_ok h
      obtain ⟨files, -, h⟩ := exists_of_bind_eq_ok h
      obtain ⟨own, hown, h⟩ := exists_of_bind_eq_ok h
      obtain ⟨options, -, h⟩ := exists_of_bind_eq_ok h
      obtain rfl := Except.ok.inj h
      rw [Json.IsObjectWith, Platform.HasSources]
      rw [ownSource] at hown
      split at hown
      · next hnull =>
          obtain rfl : none = own := Except.ok.inj hown
          rw [if_pos hnull]
          simp
      · next hgiven =>
          obtain ⟨names, hnames, rfl⟩ := exists_of_map_eq_ok hown
          rw [if_neg hgiven, stringsOf_eq_ok_iff.mp hnames]
          simp
  | _ => cases h

/-- All platforms have sources exactly if their entries say so. -/
lemma reads_checkSources {entries : Fields} {platforms : List Platform}
    (h : entries.mapM (fun e => platformOf e.1 e.2) = .ok platforms) (source : List String) :
    Reads (checkSources source platforms)
      (∀ e ∈ entries, e.2.IsObjectWith (Platform.HasSources (.arr (source.map .str))))
      fun _ => False := by
  have hgiven : (∀ p ∈ platforms, p.source.getD source ≠ []) ↔
      ∀ e ∈ entries, e.2.IsObjectWith (Platform.HasSources (.arr (source.map .str))) := by
    have hread := forall₂_of_mapM h
    clear h
    induction hread with
    | nil => simp
    | cons he _ ih =>
        rw [List.forall_mem_cons, List.forall_mem_cons]
        exact and_congr (source_of_platformOf he source) ih
  rw [checkSources]
  split
  · next p hp =>
      refine (reads_error rfl).congr (iff_of_false id fun hall => ?_) fun _ => Iff.rfl
      exact hgiven.mpr hall p (List.mem_of_find?_eq_some hp) (by simpa using List.find?_some hp)
  · next hnone =>
      refine (reads_ok ()).congr (iff_of_true trivial (hgiven.mp fun p hp => ?_)) fun _ => Iff.rfl
      simpa using List.find?_eq_none.mp hnone p hp

/-- **A plan is read exactly from the document of one.** -/
theorem reads_ofFields (raw : Fields) :
    Reads (ofFields raw) (IsDocument raw) fun kind => MeetsComposite kind raw := by
  by_cases hentries : ∃ entries, entries ≠ [] ∧ raw.getD "platforms" = .obj entries
  · obtain ⟨entries, hne, hentries⟩ := hentries
    have hplatforms := Reads.mapM (fun e : String × Json => reads_platformOf e.1 e.2) entries
    have hsources : ∀ source, stringsOf "source" (commonSource raw) = .ok source →
        ∀ platforms, entries.mapM (fun e => platformOf e.1 e.2) = .ok platforms →
        Reads (checkSources source platforms)
          (∀ e ∈ entries, e.2.IsObjectWith (Platform.HasSources (commonSource raw)))
          fun _ => False := by
      intro source hsource platforms hread
      rw [stringsOf_eq_ok_iff.mp hsource]
      exact reads_checkSources hread source
    rw [ofFields_obj hne hentries]
    refine Reads.congr ((reads_stringsOf _ _).bind fun source hsource =>
      hplatforms.bind fun platforms hread => (hsources source hsource platforms hread).bind
      fun _ _ => (reads_optionsOf _ _).bind fun _ _ => reads_ok _) ?_ fun kind => ?_
    · constructor
      · rintro ⟨hsource, hentry, hgiven, hoptions, -⟩
        exact ⟨⟨entries, hne, hentries, fun e he => ⟨hentry e he, hgiven e he⟩⟩, hsource, hoptions⟩
      · rintro ⟨⟨entries', -, hentries', hall⟩, hsource, hoptions⟩
        obtain rfl := Json.obj.inj (hentries.symm.trans hentries')
        exact ⟨hsource, fun e he => (hall e he).1, fun e he => (hall e he).2, hoptions, trivial⟩
    · simp only [MeetsComposite, hentries, Json.obj.injEq, Prod.exists, false_or, and_false,
        or_false]
  · have hentries : ∀ entries, entries ≠ [] → raw.getD "platforms" ≠ .obj entries :=
      fun entries hne h => hentries ⟨entries, hne, h⟩
    rw [ofFields_error hentries]
    refine (reads_error rfl).congr (iff_of_false id ?_) fun kind => iff_of_false id ?_
    · rintro ⟨⟨entries, hne, h, -⟩, -, -⟩
      exact hentries entries hne h
    · rintro ⟨-, before, name, v, after, h, -⟩
      exact hentries _ (by simp) h

/-- **What is read from any object**: a plan, exactly if the object is the document of one; an error
with a message about the object; or the error of a list or an object in the place of a name, which
is none. The last is so exactly if the object meets such a name: the format of a file is a list or an
object, or the format exists and the class of the file is one, and all that is looked at before is
as it is in the document of a plan. -/
theorem ofFields_reported_iff (raw : Fields) :
    ((∃ plan, ofFields raw = .ok plan) ↔ IsDocument raw) ∧
      (∀ kind, ofFields raw = .error (.compositeName kind) ↔ MeetsComposite kind raw) ∧
      (((∃ plan, ofFields raw = .ok plan) ∨
        ∃ e, ofFields raw = .error e ∧ e.isReported = true) ↔
          ∀ kind, ¬ MeetsComposite kind raw) := by
  obtain ⟨hok, hcomposite⟩ := reads_ofFields raw
  refine ⟨hok, hcomposite, ?_⟩
  constructor
  · rintro (⟨plan, hplan⟩ | ⟨e, he, hreported⟩) kind hmeets
    · cases hplan.symm.trans ((hcomposite kind).mpr hmeets)
    · obtain rfl := Except.error.inj (he.symm.trans ((hcomposite kind).mpr hmeets))
      cases hreported
  · intro hnone
    cases hread : ofFields raw with
    | ok plan => exact .inl ⟨plan, rfl⟩
    | error e =>
        refine .inr ⟨e, rfl, ?_⟩
        cases e with
        | compositeName kind => exact absurd ((hcomposite kind).mp hread) (hnone kind)
        | _ => rfl

/-- A plan with a list in the place of the format of its only file. -/
def listedFormat : Fields :=
  [("source", .arr [.str "tokens.json"]),
    ("platforms", .obj [("web", .obj [("files", .arr [
      .obj [("destination", .str "tokens.css"), ("format", .arr [.str "css/variables"])]])])])]

/-- The list is looked up among the titles of formats: there is no plan, and the error has no
message about the document. -/
theorem listed_format_unreported :
    ofFields listedFormat = .error (.compositeName .list) ∧
      ¬ ((∃ plan, ofFields listedFormat = .ok plan) ∨
        ∃ e, ofFields listedFormat = .error e ∧ e.isReported = true) := by
  have hread : ofFields listedFormat = .error (.compositeName .list) := rfl
  refine ⟨hread, ?_⟩
  rintro (⟨plan, hplan⟩ | ⟨e, he, hreported⟩)
  · cases hread.symm.trans hplan
  · obtain rfl := Except.error.inj (hread.symm.trans he)
    cases hreported

end BuildPlan

end StyleTokens
