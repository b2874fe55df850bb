import StyleTokens.Build.Configuration
import StyleTokens.Proofs.Directories

/-!
Configuration files stay in the data directory.

* `Pathname.read_intercalate`: names with slashes between them are read as these names;
* `Workspace.dots_not_mem_dataDirectory`: the location of a data directory has no double dots;
* `Workspace.configLocation_eq`: all that can come of looking for a configuration file;
  `Workspace.below_of_configLocation`, `Workspace.configLocation_intercalate`: what is found lies in the
  directory, and what lies there is found;
* `Workspace.ConfinedTo`, `Workspace.configPath_confined`: a file is found if and only if the location
  of its name lies in the data directory and is that of a file, and every file in the data directory
  whose name has the ending is found under its relative name.
-/

namespace StyleTokens

variable {ε : Type}

/-! ### Names of configuration files -/

/-- Names of files with slashes between them are read as these names. -/
lemma Pathname.read_intercalate {names : List String} (hne : names ≠ [])
    (h : ∀ name ∈ names, IsFileName name) :
    Pathname.read ("/".intercalate names) = ⟨0, names⟩ := by
  have hjoin : ("/".intercalate names).toList = ['/'].intercalate (names.map String.toList) :=
    String.toList_intercalate
  have hslash : ∀ part ∈ names.map String.toList, '/' ∉ part := by
    simpa using fun name hname => (h name hname).no_slash
  have hsegments : Text.segments '/' ("/".intercalate names).toList = names.map String.toList := by
    rw [hjoin, Text.segments_join (by simpa using hne) hslash]
  have hparts : (names.map String.toList).filter (fun part => part ≠ [] ∧ part ≠ ['.'])
      = names.map String.toList := by
    rw [List.filter_eq_self]
    intro part hpart
    obtain ⟨name, hname, rfl⟩ := List.mem_map.mp hpart
    have hempty : name.toList ≠ [] := by simpa using (h name hname).ne_empty
    have hdot : name.toList ≠ ['.'] := fun heq => (h name hname).ne_dot (String.toList_injective heq)
    simp [hempty, hdot]
  have hfront : ("/".intercalate names).toList.takeWhile (· == '/') = [] := by
    obtain ⟨name, rest, rfl⟩ := List.exists_cons_of_ne_nil hne
    have hname := h name (by simp)
    obtain ⟨c, cs, hcs⟩ := List.exists_cons_of_ne_nil
      (show name.toList ≠ [] by simpa using hname.ne_empty)
    have hc : (c == '/') = false := by
      have := hname.no_slash
      rw [hcs] at this
      simp only [List.mem_cons, not_or] at this
      exact beq_false_of_ne (Ne.symm this.1)
    rw [hjoin, List.map_cons, hcs]
    cases rest with
    | nil => simp [hc]
    | cons next rest => simp [List.intercalate_cons_cons, hc]
  rw [read, hfront, hsegments, hparts]
  simp

/-- The ending of a configuration file is not given twice. -/
lemma Workspace.configName_of_suffix {file : String} (h : ".json".toList <:+ file.toList) :
    configName file = file := by
  rw [configName, if_pos (List.isSuffixOf_iff_suffix.mpr h)]

/-- The ending of a configuration file has no null characters. -/
lemma Workspace.hasNull_configName {file : String} (h : hasNull file = false) :
    hasNull (configName file) = false := by
  have hending : ".json".toList.any (fun c => c.toNat == 0) = false := by decide
  rw [configName]
  split
  · exact h
  · rw [hasNull] at h ⊢
    rw [String.toList_append, List.any_append, h, hending]
    rfl

/-! ### The data directory -/

/-- Path names are seen from a location without double dots as locations without them. -/
lemma Pathname.dots_not_mem_resolve {cwd : Location} (h : ".." ∉ cwd) (p : Pathname) :
    ".." ∉ p.resolve cwd := by
  have hfold : ∀ (names : List String) (l : Location), ".." ∉ l →
      ".." ∉ names.foldl Location.step l := by
    intro names
    induction names with
    | nil => exact fun l hl => hl
    | cons name names ih =>
        intro l hl
        refine ih _ ?_
        rw [Location.step]
        split
        · exact fun hmem => hl (List.dropLast_subset l hmem)
        · next hname => simpa using ⟨hl, Ne.symm hname⟩
  refine hfold p.parts _ ?_
  split
  · simp
  · exact h

namespace Workspace

variable {w : Workspace} {dir : Location}

lemma dots_not_mem_dataCandidates {l c : Location} (h : ".." ∉ l) (hc : c ∈ dataCandidates l) :
    ".." ∉ c := by
  induction l generalizing c with
  | nil =>
      obtain rfl : c = ["data"] := by simpa [dataCandidates] using hc
      simp
  | cons name names ih =>
      obtain ⟨hname, hnames⟩ : ".." ≠ name ∧ ".." ∉ names := by simpa using h
      rw [dataCandidates, List.mem_append, List.mem_map] at hc
      rcases hc with ⟨d, hd, rfl⟩ | hc
      · simpa [hname] using ih hnames hd
      · obtain rfl : c = ["data"] := by simpa using hc
        simp

/-- The location of a data directory has no double dots. -/
lemma dots_not_mem_dataDirectory (hcwd : ".." ∉ w.cwd) {env : Environment} {place : Pathname}
    {base : Option String}
    (h : (w.dataDirectory env place base : Except (ConfigError ε) Location) = .ok dir) :
    ".." ∉ dir := by
  have hlocated : ∀ {p : Pathname} {l : Location}, p.locate w.cwd = .ok l → ".." ∉ l := by
    intro p l hl
    rw [Pathname.locate] at hl
    split at hl
    · cases hl
    · obtain rfl := Except.ok.inj hl
      exact Pathname.dots_not_mem_resolve hcwd p
  rw [dataDirectory] at h
  split at h
  · exact hlocated (eq_ok_of_mapError_eq_ok h)
  · rw [nearestDirectory] at h
    obtain ⟨l, hl, h⟩ := exists_of_bind_eq_ok h
    obtain ⟨found, hfound, h⟩ := exists_of_bind_eq_ok h
    cases found with
    | none => cases h
    | some c =>
        obtain rfl : c = dir := Except.ok.inj h
        exact dots_not_mem_dataCandidates (hlocated (eq_ok_of_mapError_eq_ok hl))
          (mem_of_findM? (eq_ok_of_mapError_eq_ok hfound))

/-! ### The place of a configuration file -/

/-- A configuration file that is found lies in the data directory. -/
lemma exists_entry_of_configLocation {file : String} {l : Location} {stamp : Stamp}
    (h : (w.configLocation dir file : Except (ConfigError ε) (Location × Stamp)) = .ok (l, stamp)) :
    dir <+: l ∧ l = (Pathname.read (configName file)).resolve dir ∧
      ∃ content, w.tree.entryAt? [] l.pathname = .ok (some (.file content stamp)) := by
  rw [configLocation] at h
  obtain ⟨found, hfound, h⟩ := exists_of_bind_eq_ok h
  have hresolve : found = (Pathname.read (configName file)).resolve dir := by
    have hlocate := eq_ok_of_mapError_eq_ok hfound
    rw [Pathname.locate] at hlocate
    split at hlocate
    · cases hlocate
    · exact (Except.ok.inj hlocate).symm
  split at h
  · next hcontains =>
      obtain ⟨entry, hentry, h⟩ := exists_of_bind_eq_ok h
      replace hentry := eq_ok_of_mapError_eq_ok hentry
      split at h
      · next content _ =>
          obtain ⟨rfl, rfl⟩ := Prod.mk.inj (Except.ok.inj h)
          exact ⟨List.isPrefixOf_iff_prefix.mp hcontains, hresolve, content, hentry⟩
      · cases h
  · cases h

/-- What can come of looking for a configuration file: its location, and two errors. -/
lemma configLocation_eq (htree : w.tree.WellFormed) (hdir : ".." ∉ dir) {file : String}
    (hfile : (Pathname.read (configName file)).parts.any hasNull = false) {l : Location}
    (hl : l = (Pathname.read (configName file)).resolve dir) (hfits : l.Fits) :
    (w.configLocation dir file : Except (ConfigError ε) (Location × Stamp))
      = if dir <+: l then
          match w.tree.file? l with
          | some (_, stamp) => .ok (l, stamp)
          | none => .error (.missing l)
        else .error (.outside l dir) := by
  have hlocate : (Pathname.read (configName file)).locate dir = .ok l := by
    rw [Pathname.locate, hfile, hl]
    rfl
  have hplain : ".." ∉ l := hl ▸ Pathname.dots_not_mem_resolve hdir _
  have hentry := htree.entryAt?_pathname hplain hfits []
  have hcontains : dir.contains l = true ↔ dir <+: l := List.isPrefixOf_iff_prefix
  rw [configLocation, hlocate]
  change (if dir.contains l then _ else _) = _
  rw [hentry]
  by_cases hbelow : dir <+: l
  · rw [if_pos hbelow, if_pos (hcontains.mpr hbelow), FileTree.file?]
    cases w.tree.get? l with
    | none => rfl
    | some e => cases e <;> rfl
  · rw [if_neg hbelow, if_neg (hcontains.not.mpr hbelow)]
    rfl

/-- A file that is found is one of the tree, and lies below the data directory if that is a
directory. -/
lemma below_of_configLocation (htree : w.tree.WellFormed) (hdir : ".." ∉ dir) {file : String}
    {l : Location} {stamp : Stamp}
    (h : (w.configLocation dir file : Except (ConfigError ε) (Location × Stamp)) = .ok (l, stamp)) :
    (∃ content, w.tree.file? l = some (content, stamp)) ∧ (∀ name ∈ l, IsFileName name) ∧
      ∃ names, l = dir ++ names ∧ (w.tree.hasDirectory dir → names ≠ []) := by
  obtain ⟨⟨names, rfl⟩, hresolve, content, hentry⟩ := exists_entry_of_configLocation h
  have hplain : ".." ∉ dir ++ names := hresolve ▸ Pathname.dots_not_mem_resolve hdir _
  obtain ⟨l, hfollow, hget⟩ := FileTree.exists_follow_of_entryAt? hentry
  have hl : l = dir ++ names :=
    (FileTree.resolve_eq_of_follow hfollow).trans (Location.resolve_pathname hplain [])
  rw [hl] at hget
  refine ⟨⟨content, FileTree.file?_eq_some_iff.mpr hget⟩, htree.isFileName (by rw [hget]; rfl),
    names, rfl, ?_⟩
  -- a directory is no file, so the location is not that of the data directory itself
  rintro hisdir rfl
  rw [FileTree.hasDirectory_iff, ← List.append_nil dir, hget] at hisdir
  cases hisdir

/-- A file in the data directory whose name has the ending is found under its relative name. -/
lemma configLocation_intercalate (htree : w.tree.WellFormed) (hdir : ".." ∉ dir)
    {names : List String} {last : String} {content : List UInt8} {stamp : Stamp}
    (hending : ".json".toList <:+ last.toList)
    (hget : w.tree.file? (dir ++ (names ++ [last])) = some (content, stamp))
    (hfits : (dir ++ (names ++ [last])).Fits) :
    (w.configLocation dir ("/".intercalate (names ++ [last])) :
        Except (ConfigError ε) (Location × Stamp)) = .ok (dir ++ (names ++ [last]), stamp) := by
  have hentry := FileTree.file?_eq_some_iff.mp hget
  have hnames : ∀ name ∈ names ++ [last], IsFileName name := fun name hname =>
    htree.isFileName (by rw [hentry]; rfl) name (List.mem_append_right dir hname)
  have hname : configName ("/".intercalate (names ++ [last]))
      = "/".intercalate (names ++ [last]) := by
    refine configName_of_suffix (hending.trans ?_)
    cases names with
    | nil => simp
    | cons name names =>
        rw [String.intercalate_append_of_ne_nil (by simp) (by simp), String.intercalate_singleton,
          String.toList_append]
        exact List.suffix_append _ _
  have hread : Pathname.read (configName ("/".intercalate (names ++ [last])))
      = ⟨0, names ++ [last]⟩ := by
    rw [hname, Pathname.read_intercalate (by simp) hnames]
  have hnull : (Pathname.read (configName ("/".intercalate (names ++ [last])))).parts.any hasNull
      = false := by
    rw [hread, ← Bool.not_eq_true, List.any_eq_true]
    rintro ⟨name, hname, hnull⟩
    exact Bool.false_ne_true ((hnames name hname).no_null.symm.trans hnull)
  have hplain : ".." ∉ names ++ [last] := fun hdots => (hnames _ hdots).ne_dots rfl
  have hresolve : dir ++ (names ++ [last])
      = (Pathname.read (configName ("/".intercalate (names ++ [last])))).resolve dir := by
    rw [hread]
    exact (Location.foldl_step hplain dir).symm
  rw [configLocation_eq htree hdir hnull hresolve hfits, if_pos (List.prefix_append dir _), hget]

/-! ### Confinement -/

/-- The places of configuration files are confined to a data directory of a tree: a function that looks
for files by their names finds what is in the directory and nothing else. -/
structure ConfinedTo (tree : FileTree) (dir : Location)
    (path : String → Except (ConfigError ε) (Location × Stamp)) : Prop where
  /-- What is found is a file of the tree, and lies below the data directory if that is a directory. -/
  below : ∀ file l stamp, path file = .ok (l, stamp) →
    (∃ content, tree.file? l = some (content, stamp)) ∧ (∀ name ∈ l, IsFileName name) ∧
      ∃ names, l = dir ++ names ∧ (tree.hasDirectory dir → names ≠ [])
  /-- Where the directories exist through which a name leads, what is found is what the system finds. -/
  follows : ∀ file l stamp, path file = .ok (l, stamp) →
    ∀ l', tree.follow dir (Pathname.read (configName file)) = .ok l' → l' = l
  /-- A name leads to a file if and only if its location is that of a file in the data directory. -/
  found_iff : ∀ file, hasNull file = false →
    ∀ l, l = (Pathname.read (configName file)).resolve dir → l.Fits →
      ∀ l' stamp, path file = .ok (l', stamp) ↔
        l' = l ∧ dir <+: l ∧ ∃ content, tree.file? l = some (content, stamp)
  /-- A name that leads to no file leads out of the data directory, or the file is missing. -/
  error_of : ∀ file, hasNull file = false →
    ∀ l, l = (Pathname.read (configName file)).resolve dir → l.Fits →
      ∀ e, path file = .error e →
        dir <+: l ∧ e = .missing l ∨ ¬ dir <+: l ∧ e = .outside l dir
  /-- A file in the data directory whose name has the ending is found under its relative name. -/
  reaches : ∀ names last content stamp, ".json".toList <:+ last.toList →
    tree.file? (dir ++ (names ++ [last])) = some (content, stamp) →
    (dir ++ (names ++ [last])).Fits →
      path ("/".intercalate (names ++ [last])) = .ok (dir ++ (names ++ [last]), stamp)

/-- Configuration files are confined to every data directory that is named without double dots. -/
lemma configLocation_confined (htree : w.tree.WellFormed) (hdir : ".." ∉ dir) :
    ConfinedTo (ε := ε) w.tree dir (w.configLocation dir) where
  below _ _ _ h := below_of_configLocation htree hdir h
  follows := by
    intro file l stamp h l' hfollow
    obtain ⟨-, hresolve, -⟩ := exists_entry_of_configLocation h
    rw [FileTree.resolve_eq_of_follow hfollow, hresolve]
  found_iff := by
    intro file hfile l hl hfits l' stamp
    have hnull := Pathname.any_hasNull_read (hasNull_configName hfile)
    rw [configLocation_eq htree hdir hnull hl hfits]
    constructor
    · intro h
      split at h
      · next hbelow =>
          split at h
          · next content stamp' hget =>
              obtain ⟨rfl, rfl⟩ := Prod.mk.inj (Except.ok.inj h)
              exact ⟨rfl, hbelow, content, hget⟩
          · cases h
      · cases h
    · rintro ⟨rfl, hbelow, content, hget⟩
      rw [if_pos hbelow, hget]
  error_of := by
    intro file hfile l hl hfits e h
    have hnull := Pathname.any_hasNull_read (hasNull_configName hfile)
    rw [configLocation_eq htree hdir hnull hl hfits] at h
    split at h
    · next hbelow =>
        split at h
        · cases h
        · exact .inl ⟨hbelow, (Except.error.inj h).symm⟩
    · next hbelow => exact .inr ⟨hbelow, (Except.error.inj h).symm⟩
  reaches _ _ _ _ hending hget hfits := configLocation_intercalate htree hdir hending hget hfits

/-- **Configuration files stay in the data directory**, and all files in it that have the ending can be
found. The data directory is the one that is given, if one is. -/
theorem configPath_confined (htree : w.tree.WellFormed) (hcwd : ".." ∉ w.cwd)
    (env : Environment) (place : Pathname) (base : Option String) :
    (∀ s, base = some s → hasNull s = false →
      (w.dataDirectory env place base : Except (ConfigError ε) Location)
        = .ok ((Pathname.read s).resolve w.cwd)) ∧
    ∀ dir, (w.dataDirectory env place base : Except (ConfigError ε) Location) = .ok dir →
      ConfinedTo (ε := ε) w.tree dir (w.configPath env place base) := by
  refine ⟨?_, fun dir hdir => ?_⟩
  · rintro s rfl hnull
    have hlocate : (Pathname.read s).locate w.cwd = .ok ((Pathname.read s).resolve w.cwd) := by
      rw [Pathname.locate, Pathname.any_hasNull_read hnull]
      rfl
    change ((Pathname.read s).locate w.cwd).mapError _ = _
    rw [hlocate]
    rfl
  · have hpath : (w.configPath env place base : String → Except (ConfigError ε) _)
        = w.configLocation dir := by
      funext file
      rw [configPath, hdir, ok_bind]
    rw [hpath]
    exact configLocation_confined htree (dots_not_mem_dataDirectory hcwd hdir)

/-- A project with a data directory, and beside it a directory whose name starts in the same way. -/
def siblingProject : Workspace where
  tree := ((({} : FileTree).install [] (Pathname.read "/p/data/a/b.json") []).1.install []
    (Pathname.read "/p/database/c.json") []).1
  cwd := ["p"]

lemma siblingProject_wellFormed : siblingProject.tree.WellFormed :=
  (FileTree.wellFormed_empty.install (Pathname.isProper_read _) [] [] none).install
    (Pathname.isProper_read _) [] [] none

/-- Of two files in directories with similar names, the one in the data directory is found under all
its names, and the other one under none. -/
theorem configPath_confined_sibling :
    let path : String → Except (ConfigError Unit) (Location × Stamp) :=
      siblingProject.configPath [] ⟨1, []⟩ (some "data")
    siblingProject.tree.WellFormed ∧ ".." ∉ siblingProject.cwd ∧
      (∀ file ∈ ["a/b", "./a//b.json", "../data/a/x/../b", "/p/data/a/b.json"],
        path file = .ok (["p", "data", "a", "b.json"], .tick 0)) ∧
      ∀ file ∈ ["../database/c", "/p/database/c.json", "a/../../database/c"],
        ∀ found, path file ≠ .ok found := by
  intro path
  have hcwd : ".." ∉ siblingProject.cwd := by decide
  have hdir : (Pathname.read "data").resolve siblingProject.cwd = ["p", "data"] := by
    decide +kernel
  obtain ⟨hgiven, hconfined⟩ := configPath_confined (ε := Unit) siblingProject_wellFormed hcwd []
    ⟨1, []⟩ (some "data")
  have hpath : ConfinedTo siblingProject.tree ["p", "data"] path :=
    hconfined ["p", "data"] (hdir ▸ hgiven "data" rfl (by decide))
  refine ⟨siblingProject_wellFormed, hcwd, fun file hfile => ?_, fun file hfile found h => ?_⟩
  · have hnames : ∀ file ∈ ["a/b", "./a//b.json", "../data/a/x/../b", "/p/data/a/b.json"],
        hasNull file = false ∧ ["p", "data", "a", "b.json"]
          = (Pathname.read (configName file)).resolve ["p", "data"] := by
      decide +kernel
    obtain ⟨hnull, hl⟩ := hnames file hfile
    refine (hpath.found_iff file hnull _ hl ⟨by decide +kernel, by decide +kernel⟩ _ _).mpr
      ⟨rfl, ⟨["a", "b.json"], rfl⟩, [], by decide +kernel⟩
  · have hnames : ∀ file ∈ ["../database/c", "/p/database/c.json", "a/../../database/c"],
        hasNull file = false ∧ ["p", "database", "c.json"]
          = (Pathname.read (configName file)).resolve ["p", "data"] := by
      decide +kernel
    obtain ⟨hnull, hl⟩ := hnames file hfile
    have hbelow := ((hpath.found_iff file hnull _ hl ⟨by decide +kernel, by decide +kernel⟩
      found.1 found.2).mp h).2.1
    exact absurd hbelow (by decide)

end Workspace

end StyleTokens
