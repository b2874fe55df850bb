import StyleTokens.Proofs.Writing

/-!
Runs for some of the platforms.

* `Workspace.unknownPlatforms_eq_nil_iff`, `Workspace.outcome_renderAll`: a run whose names are
  known is one over the selected platforms;
* `Workspace.renderPlatform_spec`, `Workspace.renderPlatform_congr`: the names and the places of the
  files of a platform, and what it takes from the plan;
* `Workspace.renderAll_eq_ok_iff`, `Workspace.renderAll_eq_error_iff`: what a run gives, by what the
  selected platforms give on their own;
* `Workspace.renderAll_congr`: a run looks at the selected platforms alone;
* `Workspace.renderAll_isolated`: platforms are isolated from each other.
-/

namespace StyleTokens

namespace Workspace

variable {w : Workspace} {plan plan' : BuildPlan} {p : Platform} {root : Pathname}
  {only only' : List String} {timestamp : Option String} {now : Moment} {files : List BuiltFile}

/-! ### Selected platforms -/

/-- No name is unknown if and only if each is that of a platform. -/
lemma unknownPlatforms_eq_nil_iff :
    unknownPlatforms plan only = [] ↔ ∀ name ∈ only, name ∈ plan.platforms.map Platform.name := by
  have hknown : ∀ name, plan.platform? name = none ↔ name ∉ plan.platforms.map Platform.name := by
    intro name
    rw [BuildPlan.platform?, List.find?_eq_none, List.mem_map, not_exists]
    exact forall_congr' fun p => by simp
  rw [unknownPlatforms, List.eq_nil_iff_forall_not_mem]
  refine forall_congr' fun name => ?_
  simp only [List.mem_mergeSort, List.mem_eraseDups, List.mem_filter, Option.isNone_iff_eq_none,
    hknown, not_and, not_not]

/-- The platforms that are selected by name, in the order of the plan. -/
lemma selectPlatforms_of_ne_nil (plan : BuildPlan) (hne : only ≠ []) :
    selectPlatforms plan only = plan.platforms.filter (·.name ∈ only) := by
  rw [selectPlatforms, if_neg hne]
  simp

/-- Names in another order, or with other repetitions, select the same platforms. -/
lemma selectPlatforms_congr (plan : BuildPlan) (hne : only ≠ [])
    (h : ∀ name, name ∈ only' ↔ name ∈ only) :
    selectPlatforms plan only' = selectPlatforms plan only := by
  obtain ⟨name, hname⟩ := List.exists_mem_of_ne_nil only hne
  have hne' : only' ≠ [] := List.ne_nil_of_mem ((h name).mpr hname)
  simp only [selectPlatforms_of_ne_nil plan hne, selectPlatforms_of_ne_nil plan hne', h]

lemma mem_selectPlatforms (hne : only ≠ []) :
    p ∈ selectPlatforms plan only ↔ p ∈ plan.platforms ∧ p.name ∈ only := by
  simp [selectPlatforms_of_ne_nil plan hne]

/-- A run whose names are known is one over the selected platforms. -/
lemma outcome_renderAll (w : Workspace)
    (hknown : ∀ name ∈ only, name ∈ plan.platforms.map Platform.name) :
    (w.renderAll plan root only timestamp now).outcome
      = ((selectPlatforms plan only).mapM fun p =>
          (w.renderPlatform plan p root timestamp now).outcome.mapError BuildFailure.platform).map
            List.flatten := by
  rw [renderAll, if_neg (not_not.mpr (unknownPlatforms_eq_nil_iff.mpr hknown))]
  simp only [Reported.outcome_bind, Reported.outcome_mapM, Reported.outcome_tell,
    Reported.outcome_mapError, Reported.outcome_pure, ok_bind]
  rfl

/-! ### One platform -/

/-- The files of a platform have its name, and lie where its entries say. -/
lemma renderPlatform_spec (h : (w.renderPlatform plan p root timestamp now).outcome = .ok files) :
    files.map (fun f => (f.platform, f.path)) = p.files.map fun spec => (p.name,
      (root.join (Pathname.read p.buildPath)).join (Pathname.read spec.destination)) := by
  rw [renderPlatform, Reported.outcome_mapError] at h
  have h := eq_ok_of_mapError_eq_ok h
  rw [Reported.outcome_bind] at h
  obtain ⟨c, -, h⟩ := exists_of_bind_eq_ok h
  rw [Reported.outcome_mapM] at h
  have hfile : ∀ spec f,
      (renderFile plan p root (stampOf timestamp now) now c spec).outcome = .ok f →
      (p.name, (root.join (Pathname.read p.buildPath)).join (Pathname.read spec.destination))
        = (f.platform, f.path) := by
    intro spec f hf
    rw [renderFile, Reported.outcome_bind] at hf
    obtain ⟨chosen, -, hf⟩ := exists_of_bind_eq_ok hf
    rw [Reported.outcome_bind] at hf
    obtain ⟨content, -, hf⟩ := exists_of_bind_eq_ok hf
    rw [← Except.ok.inj hf]
  refine Eq.symm (List.forall₂_eq_eq_eq ▸ ?_)
  rw [List.forall₂_map_left_iff, List.forall₂_map_right_iff]
  exact (forall₂_of_mapM h).imp hfile

lemma platform_of_mem_renderPlatform
    (h : (w.renderPlatform plan p root timestamp now).outcome = .ok files) {f : BuiltFile}
    (hf : f ∈ files) : f.platform = p.name := by
  have hspec := List.mem_map_of_mem (f := fun f : BuiltFile => (f.platform, f.path)) hf
  rw [renderPlatform_spec h, List.mem_map] at hspec
  obtain ⟨spec, -, hspec⟩ := hspec
  exact (congrArg Prod.fst hspec).symm

/-- A failure of a platform has its name. -/
lemma platform_of_renderPlatform_error {e : PlatformError}
    (h : (w.renderPlatform plan p root timestamp now).outcome = .error e) :
    ∃ cause, e = ⟨p.name, cause⟩ := by
  rw [renderPlatform, Reported.outcome_mapError] at h
  obtain ⟨cause, -, rfl⟩ := exists_of_mapError_eq_error h
  exact ⟨cause, rfl⟩

/-- A platform takes the sources and the options of all platforms from the plan, and nothing
else. -/
lemma renderPlatform_congr (w : Workspace) (hsource : plan'.source = plan.source)
    (hoptions : plan'.options = plan.options) (p : Platform) (root : Pathname)
    (timestamp : Option String) (now : Moment) :
    w.renderPlatform plan' p root timestamp now = w.renderPlatform plan p root timestamp now := by
  have hfile : renderFile plan' p root (stampOf timestamp now) now
      = renderFile plan p root (stampOf timestamp now) now := by
    funext c spec
    rw [renderFile, renderFile, fileOptions, fileOptions, hoptions]
  rw [renderPlatform, renderPlatform, platformTokens, platformTokens, BuildPlan.sourcesOf,
    BuildPlan.sourcesOf, hsource, hoptions, hfile]

/-! ### Runs -/

section Runs

variable (w : Workspace)
  (hknown : ∀ name ∈ only, name ∈ plan.platforms.map Platform.name)

include hknown

/-- A run gives the files of the selected platforms, one platform after the other. -/
theorem renderAll_eq_ok_iff :
    (w.renderAll plan root only timestamp now).outcome = .ok files ↔
      ∃ parts, List.Forall₂
          (fun p part => (w.renderPlatform plan p root timestamp now).outcome = .ok part)
          (selectPlatforms plan only) parts ∧
        files = parts.flatten := by
  have hparts : ∀ parts,
      ((selectPlatforms plan only).mapM fun p => (w.renderPlatform plan p root timestamp
        now).outcome.mapError BuildFailure.platform) = .ok parts ↔
      List.Forall₂ (fun p part => (w.renderPlatform plan p root timestamp now).outcome = .ok part)
        (selectPlatforms plan only) parts := by
    simp only [mapM_eq_ok_iff, mapError_eq_ok_iff, implies_true]
  rw [outcome_renderAll w hknown]
  constructor
  · intro h
    obtain ⟨parts, hrendered, rfl⟩ := exists_of_map_eq_ok h
    exact ⟨parts, (hparts parts).mp hrendered, rfl⟩
  · rintro ⟨parts, hrendered, rfl⟩
    rw [(hparts parts).mpr hrendered]
    rfl

/-- A run fails at the first of the selected platforms that does. -/
theorem renderAll_eq_error_iff {e : BuildFailure} :
    (w.renderAll plan root only timestamp now).outcome = .error e ↔
      ∃ before p after cause, selectPlatforms plan only = before ++ p :: after ∧
        (∀ q ∈ before, ∃ part, (w.renderPlatform plan q root timestamp now).outcome = .ok part) ∧
        (w.renderPlatform plan p root timestamp now).outcome = .error ⟨p.name, cause⟩ ∧
        e = .platform ⟨p.name, cause⟩ := by
  have hflatten : ∀ x : Except BuildFailure (List (List BuiltFile)),
      x.map List.flatten = .error e ↔ x = .error e := by
    intro x
    cases x <;> simp [Except.map]
  rw [outcome_renderAll w hknown, hflatten]
  simp only [mapM_eq_error_iff, mapError_eq_ok_iff]
  constructor
  · rintro ⟨before, p, after, hsplit, hbefore, hfailed⟩
    obtain ⟨e', hown, rfl⟩ := exists_of_mapError_eq_error hfailed
    obtain ⟨cause, rfl⟩ := platform_of_renderPlatform_error hown
    exact ⟨before, p, after, cause, hsplit, hbefore, hown, rfl⟩
  · rintro ⟨before, p, after, cause, hsplit, hbefore, hfailed, rfl⟩
    exact ⟨before, p, after, hsplit, hbefore, by rw [hfailed]; rfl⟩

/-- A run succeeds exactly if the selected platforms do on their own. -/
lemma exists_renderAll_eq_ok_iff :
    (∃ files, (w.renderAll plan root only timestamp now).outcome = .ok files) ↔
      ∀ p ∈ selectPlatforms plan only,
        ∃ part, (w.renderPlatform plan p root timestamp now).outcome = .ok part := by
  simp only [renderAll_eq_ok_iff w hknown]
  rw [← exists_mapM_eq_ok_iff]
  simp only [mapM_eq_ok_iff]
  exact ⟨fun ⟨_, parts, hparts, _⟩ => ⟨parts, hparts⟩,
    fun ⟨parts, hparts⟩ => ⟨_, parts, hparts, rfl⟩⟩

end Runs

/-- The files of some of the platforms are those of all platforms that have their names. -/
lemma forall₂_filter {platforms : List Platform} {parts : List (List BuiltFile)}
    (h : List.Forall₂
      (fun p part => (w.renderPlatform plan p root timestamp now).outcome = .ok part)
      platforms parts) (only : List String) :
    ∃ parts', List.Forall₂
        (fun p part => (w.renderPlatform plan p root timestamp now).outcome = .ok part)
        (platforms.filter (·.name ∈ only)) parts' ∧
      parts.flatten.filter (·.platform ∈ only) = parts'.flatten := by
  induction h with
  | nil => exact ⟨[], .nil, rfl⟩
  | @cons p part _ parts hpart _ ih =>
      obtain ⟨parts', hparts', hfiles⟩ := ih
      have hname : ∀ f ∈ part, f.platform = p.name :=
        fun f hf => platform_of_mem_renderPlatform hpart hf
      rw [List.flatten_cons, List.filter_append, hfiles]
      by_cases hp : p.name ∈ only
      · refine ⟨part :: parts', ?_, ?_⟩
        · rw [List.filter_cons_of_pos (by simpa using hp)]
          exact .cons hpart hparts'
        · rw [List.filter_eq_self.mpr fun f hf => by simpa [hname f hf] using hp]
          rfl
      · refine ⟨parts', ?_, ?_⟩
        · rw [List.filter_cons_of_neg (by simpa using hp)]
          exact hparts'
        · rw [List.filter_eq_nil_iff.mpr fun f hf => by simpa [hname f hf] using hp]
          rfl

/-- A run for platforms by name gives those of the files of a run for all platforms that have the
names. -/
lemma renderAll_of_full (hne : only ≠ [])
    (hknown : ∀ name ∈ only, name ∈ plan.platforms.map Platform.name)
    (h : (w.renderAll plan root [] timestamp now).outcome = .ok files) :
    (w.renderAll plan root only timestamp now).outcome
      = .ok (files.filter (·.platform ∈ only)) := by
  obtain ⟨parts, hparts, rfl⟩ := (renderAll_eq_ok_iff w (by simp)).mp h
  rw [renderAll_eq_ok_iff w hknown, selectPlatforms_of_ne_nil plan hne]
  exact forall₂_filter hparts only

/-- Two runs that select the same platforms of plans with the same sources and options are the same,
with all that they report. -/
theorem renderAll_congr (w : Workspace) (hsource : plan'.source = plan.source)
    (hoptions : plan'.options = plan.options)
    (hselected : selectPlatforms plan' only' = selectPlatforms plan only)
    (hknown : ∀ name ∈ only, name ∈ plan.platforms.map Platform.name)
    (hknown' : ∀ name ∈ only', name ∈ plan'.platforms.map Platform.name) :
    w.renderAll plan' root only' timestamp now = w.renderAll plan root only timestamp now := by
  rw [renderAll, renderAll, if_neg (not_not.mpr (unknownPlatforms_eq_nil_iff.mpr hknown)),
    if_neg (not_not.mpr (unknownPlatforms_eq_nil_iff.mpr hknown')), hselected]
  simp only [renderPlatform_congr w hsource hoptions]

/-- **Platforms are isolated from each other.** A run for platforms by name succeeds exactly if each
of them does on its own. It gives their own files, one platform after the other in the order of the
plan, which are those of a run for all platforms that have the names, if there is one. It fails at
the first of them that does, and is the same whatever the other platforms are and however the names
are ordered and repeated. -/
theorem renderAll_isolated (w : Workspace) (plan : BuildPlan) (root : Pathname)
    (timestamp : Option String) (now : Moment) (hne : only ≠ [])
    (hknown : ∀ name ∈ only, name ∈ plan.platforms.map Platform.name) :
    ((∃ files, (w.renderAll plan root only timestamp now).outcome = .ok files) ↔
        ∀ p ∈ plan.platforms, p.name ∈ only →
          ∃ part, (w.renderPlatform plan p root timestamp now).outcome = .ok part) ∧
      (∀ files, (w.renderAll plan root only timestamp now).outcome = .ok files ↔
        ∃ parts, List.Forall₂
            (fun p part => (w.renderPlatform plan p root timestamp now).outcome = .ok part)
            (plan.platforms.filter (·.name ∈ only)) parts ∧
          files = parts.flatten) ∧
      (∀ files, (w.renderAll plan root [] timestamp now).outcome = .ok files →
        (w.renderAll plan root only timestamp now).outcome
          = .ok (files.filter (·.platform ∈ only))) ∧
      (∀ e, (w.renderAll plan root only timestamp now).outcome = .error e ↔
        ∃ before p after cause, plan.platforms.filter (·.name ∈ only) = before ++ p :: after ∧
          (∀ q ∈ before,
            ∃ part, (w.renderPlatform plan q root timestamp now).outcome = .ok part) ∧
          (w.renderPlatform plan p root timestamp now).outcome = .error ⟨p.name, cause⟩ ∧
          e = .platform ⟨p.name, cause⟩) ∧
      ∀ plan' only', plan'.source = plan.source → plan'.options = plan.options →
        plan'.platforms.filter (·.name ∈ only) = plan.platforms.filter (·.name ∈ only) →
        (∀ name, name ∈ only' ↔ name ∈ only) →
        w.renderAll plan' root only' timestamp now = w.renderAll plan root only timestamp now := by
  have hselected := selectPlatforms_of_ne_nil plan hne
  refine ⟨?_, fun files => ?_, fun files => renderAll_of_full hne hknown, fun e => ?_, ?_⟩
  · rw [exists_renderAll_eq_ok_iff w hknown]
    simp only [mem_selectPlatforms hne, and_imp]
  · rw [renderAll_eq_ok_iff w hknown, hselected]
  · rw [renderAll_eq_error_iff w hknown, hselected]
  · intro plan' only' hsource hoptions hplatforms hnames
    have hselected' : selectPlatforms plan' only' = selectPlatforms plan only := by
      rw [selectPlatforms_congr plan' hne hnames, selectPlatforms_of_ne_nil plan' hne, hplatforms,
        hselected]
    -- a name that is selected is that of a platform that both plans have
    refine renderAll_congr w hsource hoptions hselected' hknown fun name hname => ?_
    have hname := (hnames name).mp hname
    obtain ⟨p, hp, rfl⟩ := List.mem_map.mp (hknown name hname)
    have hp' : p ∈ plan'.platforms.filter (·.name ∈ only) := by
      rw [hplatforms]
      exact List.mem_filter.mpr ⟨hp, by simpa using hname⟩
    exact List.mem_map_of_mem (List.mem_of_mem_filter hp')

/-- Three platforms, the first of which has a source that does not exist. -/
def brokenPlan : Fields :=
  [("source", .arr [.str "tokens.json"]),
    ("platforms", .obj [
      ("tv", .obj [
        ("source", .arr [.str "tv.json"]),
        ("files", .arr [.obj [("destination", .str "tv.css"), ("format", .str "css/variables")]])]),
      ("web", outputEntry "web.css" "css/variables"),
      ("phone", outputEntry "phone.scss" "scss/variables")])]

/-- The platform that fails is not selected; the other two are, in another order and one of them
twice. -/
theorem renderAll_isolated_broken :
    ∃ plan files e, BuildPlan.ofFields brokenPlan = .ok plan ∧
      (sizeProject.renderAll plan ⟨0, []⟩ ["phone", "web", "phone"] none newYear).outcome
        = .ok files ∧
      files.map BuiltFile.platform = ["web", "phone"] ∧
      (sizeProject.renderAll plan ⟨0, []⟩ [] none newYear).outcome = .error e ∧
      e.message = "Platform 'tv' failed: Token source not found: tv.json" := by
  obtain ⟨plan, hplan, hnames, hknown, hown, hfull⟩ : ∃ plan,
      BuildPlan.ofFields brokenPlan = .ok plan ∧
      ((sizeProject.renderAll plan ⟨0, []⟩ ["phone", "web", "phone"] none newYear).outcome.map
        (List.map BuiltFile.platform)).toOption = some ["web", "phone"] ∧
      (∀ name ∈ ["phone", "web", "phone"], name ∈ plan.platforms.map Platform.name) ∧
      (∀ p ∈ plan.platforms, p.name ∈ ["phone", "web", "phone"] →
        (sizeProject.renderPlatform plan p ⟨0, []⟩ none newYear).outcome.toOption.isSome) ∧
      (sizeProject.renderAll plan ⟨0, []⟩ [] none newYear).outcome.mapError BuildFailure.message
        = .error "Platform 'tv' failed: Token source not found: tv.json" :=
    ⟨_, rfl, by decide +kernel, by decide +kernel, by decide +kernel, by decide +kernel⟩
  obtain ⟨e, he, hmessage⟩ := exists_of_mapError_eq_error hfull
  obtain ⟨hsucceeds, -⟩ := renderAll_isolated sizeProject plan ⟨0, []⟩ none newYear
    (List.cons_ne_nil _ _) hknown
  obtain ⟨files, hfiles⟩ := hsucceeds.mpr fun p hp hname => by
    have hpart := hown p hp hname
    cases hrendered : (sizeProject.renderPlatform plan p ⟨0, []⟩ none newYear).outcome with
    | ok part => exact ⟨part, rfl⟩
    | error cause =>
        rw [hrendered] at hpart
        cases hpart
  rw [hfiles] at hnames
  exact ⟨plan, files, e, hplan, hfiles, Option.some.inj hnames, he, hmessage⟩

end Workspace

end StyleTokens
