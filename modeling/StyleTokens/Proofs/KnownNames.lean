import StyleTokens.Build.Run
import StyleTokens.Proofs.Failures

/-!
Plans in which every name can be looked up.

* `OutputSpec.IsKnown`, `Platform.IsKnown`: the transforms, formats and classes that are named exist,
  there are files and every file has a place to go;
* `BuildPlan.isKnown_of_ofFields`: the platforms of a plan that is read are such platforms, and each has
  sources;
* `Workspace.renderPlatform_findsNames`: such a platform does not fail because of a name;
* `Workspace.renderPlatform_known`: so a plan that is read never does, whatever the sources hold.
-/

namespace StyleTokens

/-! ### Names that exist -/

/-- The file has a place to go, and its format and its class of tokens exist. -/
structure OutputSpec.IsKnown (spec : OutputSpec) : Prop where
  destination : spec.destination ≠ ""
  format : (OutputFormat.ofTitle? spec.format).isSome
  filter : ∀ name, spec.filter = some name → (TokenFilter.ofName? name).isSome

/-- The transforms of the platform exist, and it has files with names that exist. -/
structure Platform.IsKnown (p : Platform) : Prop where
  transforms : ∀ title ∈ p.transforms, (Transform.ofTitle? title).isSome
  nonempty : p.files ≠ []
  files : ∀ spec ∈ p.files, spec.IsKnown

lemma OutputFormat.isSome_ofTitle? {s : String} (h : s ∈ all.map title) : (ofTitle? s).isSome := by
  obtain ⟨f, hf, rfl⟩ := List.mem_map.mp h
  exact List.find?_isSome.mpr ⟨f, hf, by simp⟩

lemma TokenFilter.isSome_ofName? {name : String} (h : name ∈ named.map Prod.fst) :
    (ofName? name).isSome := by
  have hall : ∀ name ∈ named.map Prod.fst, (ofName? name).isSome := by decide
  exact hall name h

/-! ### Reading -/

namespace BuildPlan

variable {location name : String} {names : List String} {unknown : Json → PlanError} {v : Json}

/-- A name that is accepted is one of the list. -/
lemma mem_of_nameAmong (h : nameAmong names unknown v = .ok name) : name ∈ names := by
  obtain ⟨known, hknown, h⟩ := exists_of_bind_eq_ok h
  cases known with
  | false => cases h
  | true =>
      obtain rfl : v.plain = name := Except.ok.inj h
      cases v with
      | str s =>
          rw [Json.isOneOf] at hknown
          simpa [Json.plain] using Except.ok.inj hknown
      | _ => cases hknown

/-- A file that is read has a place to go and names that exist. -/
lemma isKnown_of_fileOf {spec : OutputSpec} (h : fileOf location v = .ok spec) : spec.IsKnown := by
  cases v with
  | obj raw =>
      rw [fileOf.eq_def] at h
      dsimp only at h
      split at h
      · cases h
      · next hdestination =>
          obtain ⟨format, hformat, h⟩ := exists_of_bind_eq_ok h
          have hformat := OutputFormat.isSome_ofTitle? (mem_of_nameAmong hformat)
          split at h
          · -- a file without a class has all tokens
            obtain ⟨filter, hnone, h⟩ := exists_of_bind_eq_ok h
            obtain rfl : none = filter := Except.ok.inj hnone
            obtain ⟨options, -, h⟩ := exists_of_bind_eq_ok h
            obtain rfl := Except.ok.inj h
            exact ⟨hdestination, hformat, fun _ h => nomatch h⟩
          · obtain ⟨filter, hfilter, h⟩ := exists_of_bind_eq_ok h
            obtain ⟨found, hfound, rfl⟩ := exists_of_map_eq_ok hfilter
            obtain ⟨options, -, h⟩ := exists_of_bind_eq_ok h
            obtain rfl := Except.ok.inj h
            have hfound := TokenFilter.isSome_ofName? (mem_of_nameAmong hfound)
            exact ⟨hdestination, hformat, fun _ h => Option.some.inj h ▸ hfound⟩
  | _ => cases h

/-- The files of a list that is not empty are read one by one. -/
lemma isKnown_of_filesOf {first : Json} {rest : List Json} {files : List OutputSpec}
    (h : filesOf location (first :: rest) = .ok files) :
    files ≠ [] ∧ ∀ spec ∈ files, spec.IsKnown := by
  have hread := forall₂_of_mapM h
  refine ⟨fun hnil => ?_, fun spec hspec => ?_⟩
  · have hlength := hread.length_eq
    rw [hnil] at hlength
    simp at hlength
  · obtain ⟨⟨x, i⟩, -, hx⟩ := exists_of_mem_forall₂ hread hspec
    exact isKnown_of_fileOf hx

/-- A platform that is read has files, and its names exist. -/
lemma isKnown_of_platformOf {p : Platform} (h : platformOf name v = .ok p) : p.IsKnown := by
  cases v with
  | obj raw =>
      rw [platformOf.eq_def] at h
      dsimp only at h
      obtain ⟨transforms, -, h⟩ := exists_of_bind_eq_ok h
      split at h
      · cases h
      · next hunknown =>
          have htransforms : ∀ title ∈ transforms, (Transform.ofTitle? title).isSome := by
            intro title htitle
            rw [ne_eq, not_not, List.filter_eq_nil_iff] at hunknown
            simpa [Option.isSome_iff_ne_none] using hunknown title htitle
          split at h
          · obtain ⟨files, hfiles, h⟩ := exists_of_bind_eq_ok h
            obtain ⟨hnonempty, hfiles⟩ := isKnown_of_filesOf hfiles
            -- with or without sources of its own, the platform has these transforms and files
            split at h
            all_goals
              obtain ⟨source, -, h⟩ := exists_of_bind_eq_ok h
              obtain ⟨options, -, h⟩ := exists_of_bind_eq_ok h
              obtain rfl := Except.ok.inj h
              exact ⟨htransforms, hnonempty, hfiles⟩
          · cases h
  | _ => cases h

/-- **A plan that is read has platforms**, each with sources, files and names that exist. -/
theorem isKnown_of_ofFields {raw : Fields} {plan : BuildPlan} (h : ofFields raw = .ok plan) :
    plan.platforms ≠ [] ∧ ∀ p ∈ plan.platforms, plan.sourcesOf p ≠ [] ∧ p.IsKnown := by
  rw [ofFields.eq_def] at h
  split at h
  · next first rest hplatforms =>
      obtain ⟨source, -, h⟩ := exists_of_bind_eq_ok h
      obtain ⟨platforms, hread, h⟩ := exists_of_bind_eq_ok h
      have hread := forall₂_of_mapM hread
      split at h
      · cases h
      · next hsources =>
          obtain ⟨options, -, h⟩ := exists_of_bind_eq_ok h
          obtain rfl := Except.ok.inj h
          refine ⟨fun hnil => ?_, fun p hp => ⟨?_, ?_⟩⟩
          · have hlength := hread.length_eq
            rw [show platforms = [] from hnil] at hlength
            simp at hlength
          · have hp := List.find?_eq_none.mp hsources p hp
            simpa [sourcesOf] using hp
          · obtain ⟨⟨name, v⟩, -, hp⟩ := exists_of_mem_forall₂ hread hp
            exact isKnown_of_platformOf hp
  · cases h

end BuildPlan

/-! ### Running -/

/-- Is the cause a name that is looked up in vain? -/
def BuildCause.isUnknownName : BuildCause → Bool
  | .output cause => cause.isUnknownName
  | _ => false

/-- The transforms of a chain of names that exist are found. -/
lemma Transform.chain_findsNames {titles : List String}
    (h : ∀ title ∈ titles, (Transform.ofTitle? title).isSome) : FindsNames (Transform.chain titles) := by
  refine FailsOnly.mapM fun title htitle => ?_
  obtain ⟨t, ht⟩ := Option.isSome_iff_exists.mp (h title htitle)
  simp only [ht]
  exact failsOnly_ok t

namespace TokenList

variable {titles : List String} {options : Fields}

lemma transform_findsNames (c : TokenList)
    (h : ∀ title ∈ titles, (Transform.ofTitle? title).isSome) :
    FindsNames (c.transform titles options) :=
  (Transform.chain_findsNames h).bind fun steps =>
    (FailsOnly.mapM fun t _ => t.transform_findsNames steps options).bind fun _ => failsOnly_ok _

lemma selected_findsNames (c : TokenList) {filter : Option String}
    (h : ∀ name, filter = some name → (TokenFilter.ofName? name).isSome) :
    FindsNames (c.selected filter) := by
  cases filter with
  | none => exact failsOnly_ok c
  | some name =>
      obtain ⟨f, hf⟩ := Option.isSome_iff_exists.mp (h name rfl)
      rw [selected]
      split
      · exact failsOnly_ok c
      · rw [filterNamed, hf]
        exact c.filter_findsNames f

lemma content_findsNames (c : TokenList) {title : String}
    (h : (OutputFormat.ofTitle? title).isSome) (now : Moment) :
    FindsNames (c.content title options now) := by
  obtain ⟨f, hf⟩ := Option.isSome_iff_exists.mp h
  rw [content, hf]
  exact f.content_findsNames c options now

end TokenList

namespace Workspace

variable {plan : BuildPlan} {p : Platform} {spec : OutputSpec}

/-- The build does not fail because of a name. -/
abbrev BuildsNames {α : Type} (x : Except BuildCause α) : Prop :=
  FailsOnly (fun cause => cause.isUnknownName = false) x

/-- Errors of tokens and formats are seen as causes of the build. -/
lemma buildsNames_output {α : Type} {x : Except OutputError α} (h : FindsNames x) :
    BuildsNames (x.mapError .output) := by
  intro cause hcause
  obtain ⟨e, he, rfl⟩ := exists_of_mapError_eq_error hcause
  exact h e he

lemma loadTokens_buildsNames (w : Workspace) (paths : List Pathname) :
    BuildsNames (w.loadTokens paths).outcome := by
  rw [loadTokens, Reported.outcome_bind, Reported.outcome_ofExcept]
  refine (failsOnly_mapError (fun _ => by rfl) _).bind fun docs => ?_
  rw [Reported.outcome_bind, Reported.outcome_tell, Reported.outcome_ofExcept]
  exact (failsOnly_ok _).bind fun _ => failsOnly_mapError (fun _ => by rfl) _

lemma renderFile_buildsNames (h : spec.IsKnown) (root : Pathname) (stamp : String) (now : Moment)
    (c : TokenList) : BuildsNames (renderFile plan p root stamp now c spec).outcome := by
  simp only [renderFile, Reported.outcome_bind, Reported.outcome_ofExcept]
  refine (buildsNames_output (c.selected_findsNames h.filter)).bind fun chosen => ?_
  refine (buildsNames_output (chosen.content_findsNames h.format now)).bind fun content => ?_
  exact failsOnly_ok _

/-- **A platform whose names exist does not fail because of a name.** -/
theorem renderPlatform_findsNames (w : Workspace) (plan : BuildPlan) (h : p.IsKnown)
    (root : Pathname) (timestamp : Option String) (now : Moment) :
    FailsOnly (fun e : PlatformError => e.cause.isUnknownName = false)
      (w.renderPlatform plan p root timestamp now).outcome := by
  have hcause : BuildsNames (w.platformTokens plan p root >>= fun c =>
      p.files.mapM (renderFile plan p root (stampOf timestamp now) now c)).outcome := by
    rw [Reported.outcome_bind]
    refine FailsOnly.bind ?_ fun c => ?_
    · rw [platformTokens, Reported.outcome_bind]
      refine (w.loadTokens_buildsNames _).bind fun c => ?_
      rw [Reported.outcome_ofExcept]
      exact buildsNames_output (c.transform_findsNames h.transforms)
    · rw [Reported.outcome_mapM]
      exact FailsOnly.mapM fun spec hspec => renderFile_buildsNames (h.files spec hspec) root _ now c
  intro e he
  rw [renderPlatform, Reported.outcome_mapError] at he
  obtain ⟨cause, hfailed, rfl⟩ := exists_of_mapError_eq_error he
  exact hcause cause hfailed

/-- **Names that are accepted do not fail later.** A plan that is read has platforms; each of them has
sources and files, every file has a place to go, the transforms, formats and classes that are named
can be looked up, and whatever stands on the tree, building the platform does not fail because one
cannot. -/
theorem renderPlatform_known {raw : Fields} (h : BuildPlan.ofFields raw = .ok plan) :
    plan.platforms ≠ [] ∧ ∀ p ∈ plan.platforms,
      plan.sourcesOf p ≠ [] ∧ p.files ≠ [] ∧
      (∀ title ∈ p.transforms, (Transform.ofTitle? title).isSome) ∧
      (∀ spec ∈ p.files, spec.destination ≠ "" ∧ (OutputFormat.ofTitle? spec.format).isSome ∧
        ∀ name, spec.filter = some name → (TokenFilter.ofName? name).isSome) ∧
      ∀ (w : Workspace) (root : Pathname) (timestamp : Option String) (now : Moment)
        (e : PlatformError), (w.renderPlatform plan p root timestamp now).outcome = .error e →
          e.cause.isUnknownName = false := by
  obtain ⟨hnonempty, hplatforms⟩ := BuildPlan.isKnown_of_ofFields h
  refine ⟨hnonempty, fun p hp => ?_⟩
  obtain ⟨hsources, hknown⟩ := hplatforms p hp
  refine ⟨hsources, hknown.nonempty, hknown.transforms, fun spec hspec => ?_,
    fun w root timestamp now => w.renderPlatform_findsNames plan hknown root timestamp now⟩
  exact ⟨(hknown.files spec hspec).destination, (hknown.files spec hspec).format,
    (hknown.files spec hspec).filter⟩

/-- A platform with a transform, a format and a class. -/
def webPlatform : Platform where
  name := "web"
  transforms := ["name/camel"]
  files := [{ destination := "gaps.ts", format := "typescript/nested", filter := some "is_dimension" }]

/-- A platform with sources of its own. -/
def phonePlatform : Platform where
  name := "phone"
  transforms := []
  files := [{ destination := "Gaps.swift", format := "swift/tokens" }]
  source := some ["phone.json"]

/-- The document of a plan with both platforms. -/
def gapFields : Fields :=
  [("source", .arr [.str "wide.json", .str "small.json"]),
    ("platforms", .obj [
      ("web", .obj [
        ("transforms", .arr [.str "name/camel"]),
        ("files", .arr [.obj [("destination", .str "gaps.ts"), ("format", .str "typescript/nested"),
          ("filter", .str "is_dimension")]])]),
      ("phone", .obj [
        ("source", .arr [.str "phone.json"]),
        ("files", .arr [.obj [("destination", .str "Gaps.swift"), ("format", .str "swift/tokens"),
          ("filter", .null)]])])])]

/-- The plan with both platforms. -/
def gapPlan : BuildPlan where
  source := ["wide.json", "small.json"]
  platforms := [webPlatform, phonePlatform]
  options := BuildPlan.baseOptions [] []

/-- A project with a gap that is a token in one file and a group in another one. -/
def gapProject : Workspace where
  tree.entries :=
    [(["wide.json"], .file (Utf8.encode
      "\x7b\"gap\": \x7b\"value\": 8, \"type\": \"dimension\"\x7d\x7d") (.tick 0)),
     (["small.json"], .file (Utf8.encode
      "\x7b\"gap\": \x7b\"s\": \x7b\"value\": 4, \"type\": \"dimension\"\x7d\x7d\x7d")
      (.tick 1))]
  tree.ticks := 2
  cwd := []

/-- The last of February of 2024. -/
def leapDay : Moment where
  year := 2024
  month := 2
  day := 29

/-- The platforms fail because of paths and of a source, not because of a name. -/
theorem renderPlatform_known_gaps :
    BuildPlan.ofFields gapFields = .ok gapPlan ∧
    ∃ e e', (gapProject.renderPlatform gapPlan webPlatform ⟨0, []⟩ none leapDay).outcome = .error e ∧
      e.message = "Platform 'web' failed: Token path 'gap' is both a token and a group" ∧
      e.cause.isUnknownName = false ∧
      (gapProject.renderPlatform gapPlan phonePlatform ⟨0, []⟩ none leapDay).outcome = .error e' ∧
      e'.message = "Platform 'phone' failed: Token source not found: phone.json" ∧
      e'.cause.isUnknownName = false := by
  have hplan : BuildPlan.ofFields gapFields = .ok gapPlan := rfl
  have hweb : (gapProject.renderPlatform gapPlan webPlatform ⟨0, []⟩ none leapDay).outcome.mapError
      PlatformError.message
        = .error "Platform 'web' failed: Token path 'gap' is both a token and a group" := by
    decide +kernel
  have hphone : (gapProject.renderPlatform gapPlan phonePlatform ⟨0, []⟩ none
      leapDay).outcome.mapError PlatformError.message
        = .error "Platform 'phone' failed: Token source not found: phone.json" := by
    decide +kernel
  obtain ⟨e, he, hmessage⟩ := exists_of_mapError_eq_error hweb
  obtain ⟨e', he', hmessage'⟩ := exists_of_mapError_eq_error hphone
  obtain ⟨-, hknown⟩ := renderPlatform_known hplan
  obtain ⟨-, -, -, -, hcause⟩ := hknown webPlatform (List.mem_cons_self ..)
  obtain ⟨-, -, -, -, hcause'⟩ := hknown phonePlatform
    (List.mem_cons_of_mem _ (List.mem_singleton_self _))
  exact ⟨hplan, e, e', he, hmessage, hcause _ _ _ _ _ he, he', hmessage', hcause' _ _ _ _ _ he'⟩

end Workspace

end StyleTokens
