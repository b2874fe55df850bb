import StyleTokens.Proofs.Selection

/-!
What a build that succeeds leaves of each of its files.

* `Utf8.encode_injective`: texts with the same bytes are the same;
* `FileTree.Keeps`: directories stay directories, and what stands stays; `Keeps.follow`: path names
  that can be followed then still can;
* `FileTree.install_spec`: a file that is written can be read at its path name;
* `Workspace.follow_of_writeAll`, `Workspace.get?_of_writeAll`: every file of a run of writes can be
  reached, and what stands at the location of one that no later file has;
* `BuildPlan.outputPaths`: where the files of a plan are to go;
* `StandAsWritten`: every file stands with the content and the time of its own write;
* `Workspace.buildAll_overwritten_iff`: files are overwritten exactly if two of them have one
  location. `Workspace.shared_place_loses_file` has two such files.
-/

namespace StyleTokens

/-- Texts with the same bytes are the same. -/
lemma Utf8.encode_injective : Function.Injective Utf8.encode := by
  intro s s' h
  have hbytes : s.toList.utf8Encode = s'.toList.utf8Encode := congrArg List.toByteArray h
  rw [← String.toByteArray_ofList, ← String.toByteArray_ofList, String.ofList_toList,
    String.ofList_toList] at hbytes
  exact String.toByteArray_inj.mp hbytes

/-! ### What stays -/

namespace FileTree

variable {t t' t'' : FileTree} {cwd l l' : Location} {p : Pathname} {ways : Location → Prop}
  {content : List UInt8}

/-- Directories stay directories, and what stands at a location stays, maybe as something else. -/
structure Keeps (t t' : FileTree) : Prop where
  directory : ∀ l, t.hasDirectory l → t'.hasDirectory l
  stands : ∀ l, (t.get? l).isSome → (t'.get? l).isSome

namespace Keeps

lemma refl (t : FileTree) : Keeps t t := ⟨fun _ => id, fun _ => id⟩

lemma trans (h : Keeps t t') (h' : Keeps t' t'') : Keeps t t'' :=
  ⟨fun l hl => h'.directory l (h.directory l hl), fun l hl => h'.stands l (h.stands l hl)⟩

/-- Names that can be followed still can. -/
lemma walk (h : Keeps t t') {names : List String} (hwalk : t.walk l names = .ok l') :
    t'.walk l names = .ok l' := by
  induction names generalizing l with
  | nil => exact hwalk
  | cons name names ih =>
      rw [walk_cons_eq_ok_iff] at hwalk ⊢
      obtain ⟨hdir, hnext⟩ := hwalk
      refine ⟨h.directory l hdir, hnext.imp (And.imp_right ih) ?_⟩
      rintro ⟨hdots, hshort, hstands, hrest⟩
      exact ⟨hdots, hshort, h.stands _ hstands, ih hrest⟩

lemma follow (h : Keeps t t') (hfollow : t.follow cwd p = .ok l) : t'.follow cwd p = .ok l := by
  rw [FileTree.follow] at hfollow ⊢
  split at hfollow
  · cases hfollow
  · exact h.walk hfollow

end Keeps

lemma Grows.keeps (h : Grows ways t t') : Keeps t t' := by
  refine ⟨fun l hl => ?_, fun l hl => ?_⟩
  · rcases h.get?_eq_or l with hsame | ⟨-, hdir, -⟩
    · rwa [hasDirectory, hsame]
    · rw [hasDirectory, hdir]
  · rcases h.get?_eq_or l with hsame | ⟨-, hdir, -⟩
    · rwa [hsame]
    · rw [hdir]
      rfl

/-- A file that is put where no directory stands takes no directory away. -/
lemma keeps_put (hne : l ≠ []) (hdir : t.get? l ≠ some .directory) (stamp : Stamp) (ticks : ℕ) :
    Keeps t { t.put l (.file content stamp) with ticks } := by
  have hget : ∀ k, ({ t.put l (.file content stamp) with ticks } : FileTree).get? k
      = if k = l then some (.file content stamp) else t.get? k := get?_put hne _
  refine ⟨fun k hk => ?_, fun k hk => ?_⟩
  · have hk' : t.get? k = some .directory := hasDirectory_iff.mp hk
    have hkl : k ≠ l := fun heq => hdir (heq ▸ hk')
    rw [hasDirectory_iff, hget, if_neg hkl, hk']
  · rw [hget]
    split
    · rfl
    · exact hk

/-- A file can only be written at a path name that has a place. -/
lemma exists_reaches_of_writeFile (h : t.writeFile cwd p content = .ok t') :
    ∃ around name, t.Reaches cwd p around name ∧ p.resolve cwd = around ++ [name] := by
  rw [writeFile] at h
  split at h
  · cases h
  · cases h
  · next l hplace =>
      obtain ⟨around, name, hreaches, hl⟩ := exists_reaches_of_target hplace
      exact ⟨around, name, hreaches, (resolve_eq_of_target hplace).1.symm.trans hl⟩

/-- **A file that is written** stands where its path name leads to, with the time of the change, and
nothing that was there is gone. -/
theorem install_spec (h : t.install cwd p content = (t', .ok ())) :
    Keeps t t' ∧ t'.follow cwd p = .ok (p.resolve cwd) ∧
      t'.get? (p.resolve cwd) = some (.file content (.tick t.ticks)) ∧
      t'.ticks = t.ticks + 1 := by
  obtain ⟨t₁, hgrows, hwritten⟩ := exists_writeFile_of_install h
  obtain ⟨hne, hdir, htree⟩ := writeFile_ok hwritten
  have hkeeps : Keeps t₁ t' := htree ▸ keeps_put hne hdir _ _
  have hget : t'.get? (p.resolve cwd) = some (.file content (.tick t.ticks)) := by
    rw [htree, ← hgrows.ticks_eq]
    exact (get?_put hne _ _).trans (if_pos rfl)
  refine ⟨hgrows.keeps.trans hkeeps, ?_, hget, by rw [htree, hgrows.ticks_eq]⟩
  obtain ⟨around, name, hreaches, hplace⟩ := exists_reaches_of_writeFile hwritten
  have haround : t'.follow cwd p.parent = .ok around := hkeeps.follow hreaches.follow
  rw [follow] at haround ⊢
  split at haround
  · cases haround
  · rw [hreaches.fault, hreaches.parts]
    refine (walk_append haround).trans (walk_cons_eq_ok_iff.mpr ⟨hkeeps.directory _
      hreaches.directory, .inr ⟨hreaches.ne_dots, hreaches.short, ?_, ?_⟩⟩)
    · rw [← hplace, hget]
      rfl
    · rw [← hplace, FileTree.walk]

end FileTree

/-! ### Runs of writes -/

/-- The files stand as their own writes left them: with their content, and with the time that is
their place in the order of changes. -/
def StandAsWritten (cwd : Location) (start : ℕ) (files : List BuiltFile) (t : FileTree) : Prop :=
  ∀ i (h : i < files.length), t.get? (files[i].path.resolve cwd)
    = some (.file (Utf8.encode files[i].content) (.tick (start + i)))

/-- A location has no last file if and only if no file has it. -/
lemma lastAt_eq_none_iff {cwd l : Location} {files : List BuiltFile} :
    BuiltFile.lastAt cwd files l = none ↔ ∀ g ∈ files, g.path.resolve cwd ≠ l := by
  simp [BuiltFile.lastAt]

/-- The location of a file has a last file, which is one of the files. -/
lemma exists_lastAt {cwd : Location} {files : List BuiltFile} {f : BuiltFile} (hf : f ∈ files) :
    ∃ g ∈ files, BuiltFile.lastAt cwd files (f.path.resolve cwd) = some g ∧
      g.path.resolve cwd = f.path.resolve cwd := by
  cases hlast : BuiltFile.lastAt cwd files (f.path.resolve cwd) with
  | none => exact absurd rfl (lastAt_eq_none_iff.mp hlast f hf)
  | some g =>
      refine ⟨g, ?_, rfl, by simpa using List.find?_some hlast⟩
      exact List.mem_reverse.mp (List.mem_of_find?_eq_some hlast)

/-- The path names of the files of a plan, in order. -/
def BuildPlan.outputPaths (plan : BuildPlan) (root : Pathname) (only : List String) :
    List Pathname :=
  (Workspace.selectPlatforms plan only).flatMap fun p => p.files.map fun spec =>
    (root.join (Pathname.read p.buildPath)).join (Pathname.read spec.destination)

namespace Workspace

variable {w w' : Workspace} {f : BuiltFile} {files before after : List BuiltFile}

/-- **Every file of a run of writes can be reached** at its path name in the end, and nothing that
was there before is gone. -/
theorem follow_of_writeAll (h : (w.writeAll files).2.outcome = .ok ()) :
    FileTree.Keeps w.tree (w.writeAll files).1.tree ∧
      ∀ f ∈ files,
        (w.writeAll files).1.tree.follow w.cwd f.path = .ok (f.path.resolve w.cwd) := by
  induction files generalizing w with
  | nil => exact ⟨.refl _, by simp⟩
  | cons f files ih =>
      obtain ⟨w₁, hf, hcwd, hrest, hafter⟩ := exists_of_writeAll_cons h
      obtain ⟨hkeeps, hfollow, -, -⟩ := FileTree.install_spec (install_of_writeFile hf)
      obtain ⟨hkeeps', hothers⟩ := ih hrest
      rw [hcwd] at hothers
      rw [hafter]
      exact ⟨hkeeps.trans hkeeps', List.forall_mem_cons.mpr ⟨hkeeps'.follow hfollow, hothers⟩⟩

/-- What stands at the location of a file that no later one has. -/
lemma get?_of_writeAll (h : (w.writeAll (before ++ f :: after)).2.outcome = .ok ())
    (hlast : ∀ g ∈ after, g.path.resolve w.cwd ≠ f.path.resolve w.cwd) :
    (w.writeAll (before ++ f :: after)).1.tree.get? (f.path.resolve w.cwd)
      = some (.file (Utf8.encode f.content) (.tick (w.tree.ticks + before.length))) := by
  induction before generalizing w with
  | nil =>
      rw [List.nil_append] at h ⊢
      obtain ⟨w₁, hf, hcwd, hrest, hafter⟩ := exists_of_writeAll_cons h
      obtain ⟨-, -, hget, -⟩ := FileTree.install_spec (install_of_writeFile hf)
      rw [hafter]
      rw [← hcwd] at hlast hget ⊢
      -- the later writes leave the location alone, which none of them has
      rcases (wrote_of_writeAll hrest).others _ (lastAt_eq_none_iff.mpr hlast) with
        hsame | ⟨hnone, -, -⟩
      · exact hsame.trans hget
      · cases hnone.symm.trans hget
  | cons g before ih =>
      rw [List.cons_append] at h ⊢
      obtain ⟨w₁, hg, hcwd, hrest, hafter⟩ := exists_of_writeAll_cons h
      obtain ⟨-, -, -, hticks⟩ := FileTree.install_spec (install_of_writeFile hg)
      rw [hafter, ← hcwd, ih hrest (hcwd ▸ hlast), hticks, List.length_cons, Nat.add_assoc,
        Nat.add_comm 1]

/-- **Files stand as they were written exactly if no two have one location.** -/
theorem standAsWritten_iff (h : (w.writeAll files).2.outcome = .ok ()) :
    StandAsWritten w.cwd w.tree.ticks files (w.writeAll files).1.tree ↔
      (files.map fun f => f.path.resolve w.cwd).Nodup := by
  rw [List.Nodup, List.pairwise_map]
  constructor
  · intro hstand
    refine List.pairwise_iff_getElem.mpr fun i j hi hj hij hsame => ?_
    -- what stands there has the time of both writes
    have hi := hstand i hi
    rw [hsame, hstand j hj] at hi
    simp only [Option.some.injEq, Entry.file.injEq, Stamp.tick.injEq] at hi
    omega
  · intro hdistinct i hi
    have hsplit : files = files.take i ++ files[i] :: files.drop (i + 1) := by
      rw [List.getElem_cons_drop, List.take_append_drop]
    have hlast : ∀ g ∈ files.drop (i + 1), g.path.resolve w.cwd ≠ files[i].path.resolve w.cwd := by
      rw [hsplit, List.pairwise_append, List.pairwise_cons] at hdistinct
      exact fun g hg => (hdistinct.2.1.1 g hg).symm
    have hget := get?_of_writeAll (hsplit ▸ h) hlast
    rwa [← hsplit, List.length_take_of_le (Nat.le_of_lt hi)] at hget

/-! ### Builds -/

section Builds

variable {plan : BuildPlan} {root : Pathname} {only : List String} {timestamp : Option String}
  {now : Moment} {r : Reported BuildFailure (List BuiltFile)}

/-- A run that succeeds knows all the names that it is for. -/
lemma known_of_renderAll (h : (w.renderAll plan root only timestamp now).outcome = .ok files) :
    ∀ name ∈ only, name ∈ plan.platforms.map Platform.name := by
  rw [← unknownPlatforms_eq_nil_iff]
  by_contra hunknown
  rw [renderAll, if_pos hunknown] at h
  cases h

/-- The files of a run lie where the plan says. -/
lemma paths_of_renderAll (h : (w.renderAll plan root only timestamp now).outcome = .ok files) :
    files.map BuiltFile.path = plan.outputPaths root only := by
  obtain ⟨parts, hparts, rfl⟩ := (renderAll_eq_ok_iff w (known_of_renderAll h)).mp h
  rw [BuildPlan.outputPaths]
  generalize selectPlatforms plan only = platforms at hparts
  clear h
  induction hparts with
  | nil => rfl
  | cons hpart _ ih =>
      have hspec := congrArg (List.map Prod.snd) (renderPlatform_spec hpart)
      rw [List.map_map, List.map_map] at hspec
      rw [List.flatten_cons, List.map_append, List.flatMap_cons, ih]
      exact congrArg (· ++ _) hspec

/-- A build that succeeds has rendered its files and written all of them. -/
lemma written_of_buildAll (h : w.buildAll plan root only timestamp now = (w', r))
    (hr : r.outcome = .ok files) :
    (w.renderAll plan root only timestamp now).outcome = .ok files ∧
      (w.writeAll files).2.outcome = .ok () ∧ w' = (w.writeAll files).1 := by
  cases hrendered : (w.renderAll plan root only timestamp now).outcome with
  | error e =>
      obtain ⟨rfl, rfl⟩ := Prod.mk.inj ((buildAll_of_renderAll_error hrendered).symm.trans h)
      cases hrendered.symm.trans hr
  | ok files' =>
      obtain ⟨hafter, houtcome⟩ := buildAll_of_renderAll_ok hrendered
      rw [h] at hafter houtcome
      obtain ⟨_, hwritten, rfl⟩ := exists_of_map_eq_ok (houtcome.symm.trans hr)
      exact ⟨rfl, mapError_eq_ok_iff.mp hwritten, hafter⟩

/-- **What a build that succeeds leaves of its files.** They lie where the plan says. What is read
at the path name of a file is the content of the last file with its location. So each file holds its
content exactly if files with the same location have the same content, and no file is overwritten by
another one exactly if the plan has no location twice. -/
theorem buildAll_overwritten_iff (h : w.buildAll plan root only timestamp now = (w', r))
    (hr : r.outcome = .ok files) :
    files.map BuiltFile.path = plan.outputPaths root only ∧
      (∀ f ∈ files, ∃ g ∈ files,
        BuiltFile.lastAt w.cwd files (f.path.resolve w.cwd) = some g ∧
          w'.tree.readBytes w'.cwd f.path = .ok (Utf8.encode g.content)) ∧
      ((∀ f ∈ files, w'.tree.readBytes w'.cwd f.path = .ok (Utf8.encode f.content)) ↔
        ∀ f ∈ files, ∀ g ∈ files, f.path.resolve w.cwd = g.path.resolve w.cwd →
          f.content = g.content) ∧
      (StandAsWritten w.cwd w.tree.ticks files w'.tree ↔
        ((plan.outputPaths root only).map (Pathname.resolve w.cwd)).Nodup) := by
  obtain ⟨hrendered, hwritten, rfl⟩ := written_of_buildAll h hr
  have hpaths := paths_of_renderAll hrendered
  have hread : ∀ f ∈ files, ∃ g ∈ files,
      BuiltFile.lastAt w.cwd files (f.path.resolve w.cwd) = some g ∧
        g.path.resolve w.cwd = f.path.resolve w.cwd ∧
        (w.writeAll files).1.tree.readBytes w.cwd f.path = .ok (Utf8.encode g.content) := by
    intro f hf
    obtain ⟨g, hg, hlast, hsame⟩ := exists_lastAt hf
    obtain ⟨stamp, hget⟩ := (wrote_of_writeAll hwritten).files _ g hlast
    refine ⟨g, hg, hlast, hsame, ?_⟩
    rw [FileTree.readBytes, (follow_of_writeAll hwritten).2 f hf]
    dsimp only
    rw [hget]
  rw [cwd_writeAll]
  refine ⟨hpaths, fun f hf => ?_, ⟨fun hall f hf g hg hsame => ?_, fun hsame f hf => ?_⟩, ?_⟩
  · obtain ⟨g, hg, hlast, -, hbytes⟩ := hread f hf
    exact ⟨g, hg, hlast, hbytes⟩
  · -- both are read as the last file of the one location
    obtain ⟨last, -, hlast, -, hbytes⟩ := hread f hf
    obtain ⟨last', -, hlast', -, hbytes'⟩ := hread g hg
    rw [hsame, hlast'] at hlast
    obtain rfl := Option.some.inj hlast
    exact Utf8.encode_injective (Except.ok.inj ((hall f hf).symm.trans
      (hbytes.trans (hbytes'.symm.trans (hall g hg)))))
  · obtain ⟨g, hg, -, hlocation, hbytes⟩ := hread f hf
    rw [hbytes, hsame f hf g hg hlocation.symm]
  · rw [standAsWritten_iff hwritten, ← hpaths, List.map_map]
    rfl

end Builds

/-- Two files in one directory. -/
def twoFilePlan : Fields :=
  [("source", .arr [.str "tokens.json"]),
    ("platforms", .obj [
      ("web", outputEntry "out/tokens.css" "css/variables"),
      ("phone", outputEntry "out/tokens.scss" "scss/variables")])]

/-- Two platforms that have one place for their files, told by the directory of the first. -/
def sharedPlacePlan : Fields :=
  [("source", .arr [.str "tokens.json"]),
    ("platforms", .obj [
      ("web", .obj [
        ("build_path", .str "out"),
        ("files", .arr [
          .obj [("destination", .str "tokens.css"), ("format", .str "css/variables")]])]),
      ("phone", outputEntry "out/tokens.css" "scss/variables")])]

/-- Both files stand as they were written. -/
theorem buildAll_overwritten_two :
    ∃ plan w' r files, BuildPlan.ofFields twoFilePlan = .ok plan ∧
      sizeProject.buildAll plan ⟨0, []⟩ [] none newYear = (w', r) ∧ r.outcome = .ok files ∧
      files.map BuiltFile.path = [⟨0, ["out", "tokens.css"]⟩, ⟨0, ["out", "tokens.scss"]⟩] ∧
      StandAsWritten [] 1 files w'.tree := by
  obtain ⟨plan, w', r, hplan, hbuilt, hdone, hpaths⟩ : ∃ plan w' r,
      BuildPlan.ofFields twoFilePlan = .ok plan ∧
      sizeProject.buildAll plan ⟨0, []⟩ [] none newYear = (w', r) ∧ r.outcome.toOption.isSome ∧
      plan.outputPaths ⟨0, []⟩ []
        = [⟨0, ["out", "tokens.css"]⟩, ⟨0, ["out", "tokens.scss"]⟩] :=
    ⟨_, _, _, rfl, rfl, by decide +kernel, by decide +kernel⟩
  cases hr : r.outcome with
  | error e =>
      rw [hr] at hdone
      cases hdone
  | ok files =>
      obtain ⟨hfiles, -, -, hstand⟩ := buildAll_overwritten_iff hbuilt hr
      refine ⟨plan, w', r, files, hplan, hbuilt, hr, hfiles.trans hpaths, hstand.mpr ?_⟩
      rw [hpaths]
      decide

/-- The build succeeds, and one of its files does not hold its content. -/
theorem shared_place_loses_file :
    ∃ plan w' r files, BuildPlan.ofFields sharedPlacePlan = .ok plan ∧
      sizeProject.buildAll plan ⟨0, []⟩ [] none newYear = (w', r) ∧ r.outcome = .ok files ∧
      ∃ f ∈ files, w'.tree.readBytes w'.cwd f.path ≠ .ok (Utf8.encode f.content) := by
  obtain ⟨plan, w', r, hplan, hbuilt, hlost⟩ : ∃ plan w' r,
      BuildPlan.ofFields sharedPlacePlan = .ok plan ∧
      sizeProject.buildAll plan ⟨0, []⟩ [] none newYear = (w', r) ∧
      (r.outcome.toOption.getD []).any fun f =>
        w'.tree.readBytes w'.cwd f.path ≠ .ok (Utf8.encode f.content) :=
    ⟨_, _, _, rfl, rfl, by decide +kernel⟩
  obtain ⟨f, hf, hbytes⟩ := List.any_eq_true.mp hlost
  cases hr : r.outcome with
  | error e =>
      rw [hr] at hf
      cases hf
  | ok files =>
      rw [hr] at hf
      exact ⟨plan, w', r, files, hplan, hbuilt, hr, f, hf, of_decide_eq_true hbytes⟩

end Workspace

end StyleTokens
