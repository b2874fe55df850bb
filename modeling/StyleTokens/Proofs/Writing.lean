import StyleTokens.Build.Run
import StyleTokens.Proofs.FileTree

/-!
What a build leaves on the tree of files.

* `BuiltFile.lastAt`: the file that is the last one of a list at a location;
* `Wrote`: files stand with their content, the last one of each location, directories lead to them,
  and all else is as it was;
* `Workspace.wrote_of_writeFile`, `Workspace.wrote_of_writeFile_error`: what one file leaves;
* `Workspace.exists_of_writeAll_cons`, `Workspace.wrote_of_writeAll`,
  `Workspace.exists_of_writeAll_error`: what files in order leave, and where a run of them fails;
* `Workspace.buildAll_failed`: a build that fails leaves the files before the one that cannot be
  written; nothing is changed exactly if there are none and no directory was made for that file.
  `Workspace.blocked_build_leaves_file` has two files of which one stands in the way of the other.
-/

namespace StyleTokens

/-- The last one of the files whose path names have a location. -/
def BuiltFile.lastAt (cwd : Location) (files : List BuiltFile) (l : Location) :
    Option BuiltFile :=
  files.reverse.find? fun f => f.path.resolve cwd == l

/-- The files that were written stand with their content, each the last one of its location. Every
other location is as it was, or has a directory where nothing was, on the way to a file that was
tried. Every file that was written is a change. -/
structure Wrote (cwd : Location) (written tried : List BuiltFile) (t t' : FileTree) : Prop where
  files : ∀ l f, BuiltFile.lastAt cwd written l = some f →
    ∃ stamp, t'.get? l = some (.file (Utf8.encode f.content) stamp)
  others : ∀ l, BuiltFile.lastAt cwd written l = none →
    t'.get? l = t.get? l ∨
      t.get? l = none ∧ t'.get? l = some .directory ∧ ∃ f ∈ tried, f.path.LeadsThrough cwd l
  ticks : t'.ticks = t.ticks + written.length

/-! ### Runs of writes -/

section Runs

variable {cwd : Location} {written tried written' tried' : List BuiltFile} {t t' t'' : FileTree}

lemma lastAt_append (cwd : Location) (files files' : List BuiltFile) (l : Location) :
    BuiltFile.lastAt cwd (files ++ files') l
      = (BuiltFile.lastAt cwd files' l).or (BuiltFile.lastAt cwd files l) := by
  rw [BuiltFile.lastAt, List.reverse_append, List.find?_append]
  rfl

lemma lastAt_singleton (cwd : Location) (f : BuiltFile) (l : Location) :
    BuiltFile.lastAt cwd [f] l = if f.path.resolve cwd = l then some f else none := by
  by_cases hl : f.path.resolve cwd = l <;> simp [BuiltFile.lastAt, hl]

lemma Wrote.refl (cwd : Location) (t : FileTree) : Wrote cwd [] [] t t :=
  ⟨fun _ _ h => absurd h (by simp [BuiltFile.lastAt]), fun _ _ => .inl rfl, rfl⟩

/-- One run after another: the later one keeps the files of the earlier one that it does not write
again. -/
lemma Wrote.trans (h : Wrote cwd written tried t t') (h' : Wrote cwd written' tried' t' t'') :
    Wrote cwd (written ++ written') (tried ++ tried') t t'' := by
  refine ⟨fun l f hl => ?_, fun l hl => ?_, ?_⟩
  · rw [lastAt_append] at hl
    cases hlater : BuiltFile.lastAt cwd written' l with
    | some g =>
        rw [hlater, Option.some_or] at hl
        obtain rfl := Option.some.inj hl
        exact h'.files l _ hlater
    | none =>
        rw [hlater, Option.none_or] at hl
        obtain ⟨stamp, hfile⟩ := h.files l f hl
        rcases h'.others l hlater with hsame | ⟨hnone, -, -⟩
        · exact ⟨stamp, hsame.trans hfile⟩
        · exact absurd (hnone.symm.trans hfile) (by simp)
  · rw [lastAt_append, Option.or_eq_none_iff] at hl
    obtain ⟨hlater, hearlier⟩ := hl
    rcases h.others l hearlier with hsame | ⟨hnone, hdir, f, hf, hleads⟩
    · rcases h'.others l hlater with hsame' | ⟨hnone', hdir', f, hf, hleads⟩
      · exact .inl (hsame'.trans hsame)
      · exact .inr ⟨hsame ▸ hnone', hdir', f, by simp [hf], hleads⟩
    · rcases h'.others l hlater with hsame' | ⟨hnone', -, -⟩
      · exact .inr ⟨hnone, hsame'.trans hdir, f, by simp [hf], hleads⟩
      · exact absurd (hnone'.symm.trans hdir) (by simp)
  · rw [h'.ticks, h.ticks, List.length_append, Nat.add_assoc]

/-- Directories that are made on the way to a file. -/
lemma wrote_of_grows {f : BuiltFile} (h : FileTree.Grows (f.path.LeadsThrough cwd) t t') :
    Wrote cwd [] [f] t t' := by
  refine ⟨fun l g hl => absurd hl (by simp [BuiltFile.lastAt]), fun l _ => ?_, h.ticks_eq⟩
  rcases h.get?_eq_or l with hsame | ⟨hnone, hdir, hleads⟩
  · exact .inl hsame
  · exact .inr ⟨hnone, hdir, f, by simp, hleads⟩

/-- A file that is put at its location. -/
lemma wrote_put {f : BuiltFile} (hne : f.path.resolve cwd ≠ []) (stamp : Stamp) :
    Wrote cwd [f] [] t
      { t.put (f.path.resolve cwd) (.file (Utf8.encode f.content) stamp) with
        ticks := t.ticks + 1 } := by
  have hget := FileTree.get?_put (t := t) hne (.file (Utf8.encode f.content) stamp)
  refine ⟨fun l g hl => ?_, fun l hl => .inl ?_, rfl⟩
  · rw [lastAt_singleton] at hl
    split at hl
    · next hat =>
        obtain rfl := Option.some.inj hl
        exact ⟨stamp, (hget l).trans (if_pos hat.symm)⟩
    · cases hl
  · rw [lastAt_singleton] at hl
    split at hl
    · cases hl
    · next hat => exact (hget l).trans (if_neg (Ne.symm hat))

end Runs

namespace Workspace

variable {w w' : Workspace} {f : BuiltFile} {files : List BuiltFile} {cause : SystemError}

/-! ### One file -/

lemma cwd_writeFile (w : Workspace) (f : BuiltFile) : (w.writeFile f).1.cwd = w.cwd := rfl

lemma install_of_writeFile {r : Except SystemError Unit} (h : w.writeFile f = (w', r)) :
    w.tree.install w.cwd f.path (Utf8.encode f.content) = (w'.tree, r) := by
  obtain ⟨rfl, rfl⟩ := Prod.mk.inj h
  rfl

/-- A file that is written stands with its content. -/
lemma wrote_of_writeFile (h : w.writeFile f = (w', .ok ())) :
    Wrote w.cwd [f] [f] w.tree w'.tree := by
  obtain ⟨t, hgrows, hne, -, htree⟩ := FileTree.install_ok (install_of_writeFile h)
  rw [htree]
  exact (wrote_of_grows hgrows).trans (wrote_put hne _)

/-- A file that cannot be written leaves directories on the way to it. -/
lemma wrote_of_writeFile_error (h : w.writeFile f = (w', .error cause)) :
    Wrote w.cwd [] [f] w.tree w'.tree :=
  wrote_of_grows (FileTree.install_error (install_of_writeFile h))

/-! ### Files in order -/

lemma writeAll_cons_ok (h : w.writeFile f = (w', .ok ())) (rest : List BuiltFile) :
    (w.writeAll (f :: rest)).1 = (w'.writeAll rest).1 ∧
      (w.writeAll (f :: rest)).2.outcome = (w'.writeAll rest).2.outcome := by
  rw [writeAll, h]
  exact ⟨rfl, rfl⟩

lemma writeAll_cons_error (h : w.writeFile f = (w', .error cause)) (rest : List BuiltFile) :
    (w.writeAll (f :: rest)).1 = w' ∧ (w.writeAll (f :: rest)).2.outcome = .error cause := by
  rw [writeAll, h]
  exact ⟨rfl, rfl⟩

/-- The directory from which path names are seen stays. -/
lemma cwd_writeAll (w : Workspace) (files : List BuiltFile) : (w.writeAll files).1.cwd = w.cwd := by
  induction files generalizing w with
  | nil => rfl
  | cons f rest ih =>
      have hcwd := cwd_writeFile w f
      cases hf : w.writeFile f with
      | mk w' r =>
          rw [hf] at hcwd
          cases r with
          | error cause => rw [(writeAll_cons_error hf rest).1, hcwd]
          | ok _ => rw [(writeAll_cons_ok hf rest).1, ih, hcwd]

/-- The first of the files of a run is written before the others. -/
lemma exists_of_writeAll_cons (h : (w.writeAll (f :: files)).2.outcome = .ok ()) :
    ∃ w₁, w.writeFile f = (w₁, .ok ()) ∧ w₁.cwd = w.cwd ∧
      (w₁.writeAll files).2.outcome = .ok () ∧
      (w.writeAll (f :: files)).1 = (w₁.writeAll files).1 := by
  have hcwd := cwd_writeFile w f
  cases hf : w.writeFile f with
  | mk w₁ r =>
      rw [hf] at hcwd
      cases r with
      | error cause => cases (writeAll_cons_error hf files).2.symm.trans h
      | ok _ =>
          obtain ⟨hafter, houtcome⟩ := writeAll_cons_ok hf files
          exact ⟨w₁, rfl, hcwd, houtcome.symm.trans h, hafter⟩

/-- **Files that are all written** stand with their content, the last one at each location. -/
theorem wrote_of_writeAll (h : (w.writeAll files).2.outcome = .ok ()) :
    Wrote w.cwd files files w.tree (w.writeAll files).1.tree := by
  induction files generalizing w with
  | nil => exact Wrote.refl w.cwd w.tree
  | cons f rest ih =>
      obtain ⟨w₁, hf, hcwd, hrest, hafter⟩ := exists_of_writeAll_cons h
      have hwrote := ih hrest
      rw [hcwd] at hwrote
      rw [hafter]
      exact (wrote_of_writeFile hf).trans hwrote

/-- A run of writes that fails does so at one file, after all those before it are written. -/
lemma exists_of_writeAll_error (h : (w.writeAll files).2.outcome = .error cause) :
    ∃ done f rest, files = done ++ f :: rest ∧ (w.writeAll done).2.outcome = .ok () ∧
      (w.writeAll done).1.writeFile f = ((w.writeAll files).1, .error cause) := by
  induction files generalizing w with
  | nil => exact absurd h (by simp [writeAll])
  | cons f rest ih =>
      cases hf : w.writeFile f with
      | mk w' r =>
          cases r with
          | error cause' =>
              obtain ⟨hafter, houtcome⟩ := writeAll_cons_error hf rest
              obtain rfl := Except.error.inj (houtcome.symm.trans h)
              exact ⟨[], f, rest, rfl, rfl, by rw [hafter]; exact hf⟩
          | ok _ =>
              obtain ⟨hafter, houtcome⟩ := writeAll_cons_ok hf rest
              obtain ⟨done, g, rest', rfl, hdone, hg⟩ := ih (houtcome.symm.trans h)
              refine ⟨f :: done, g, rest', rfl, ?_, ?_⟩
              · rw [(writeAll_cons_ok hf done).2, hdone]
              · rw [(writeAll_cons_ok hf done).1, hafter, hg]

/-- What a run of writes leaves when it fails at a file: nothing at all exactly if that file is the
first one and no directory is new on its way. -/
lemma eq_self_iff_of_writeFile_error {done : List BuiltFile}
    (h : (w.writeAll done).1.writeFile f = (w', .error cause))
    (hwrote : Wrote w.cwd done (done ++ [f]) w.tree w'.tree) :
    w' = w ↔ done = [] ∧ ∀ l, f.path.LeadsThrough w.cwd l → w.tree.get? l = none →
      w'.tree.get? l = none := by
  constructor
  · rintro rfl
    -- every file that is written counts as a change, also if it has the content that it had
    have hcount : w'.tree.ticks = w'.tree.ticks + done.length := hwrote.ticks
    exact ⟨List.length_eq_zero_iff.mp (by omega), fun _ _ hnone => hnone⟩
  · rintro ⟨rfl, hnone⟩
    have hgrows := FileTree.install_error (install_of_writeFile h)
    have htree : w'.tree = w.tree := hgrows.eq_of_get? hnone
    have hcwd : w'.cwd = w.cwd := by
      rw [← (Prod.mk.inj h).1]
      rfl
    cases w'
    cases w
    rw [mk.injEq]
    exact ⟨htree, hcwd⟩

/-! ### Builds -/

section Builds

variable {plan : BuildPlan} {root : Pathname} {only : List String} {timestamp : Option String}
  {now : Moment} {e : BuildFailure} {r : Reported BuildFailure (List BuiltFile)}

lemma buildAll_of_renderAll_error (h : (w.renderAll plan root only timestamp now).outcome = .error e) :
    w.buildAll plan root only timestamp now = (w, w.renderAll plan root only timestamp now) := by
  rw [buildAll]
  simp only [h]

lemma buildAll_of_renderAll_ok
    (h : (w.renderAll plan root only timestamp now).outcome = .ok files) :
    (w.buildAll plan root only timestamp now).1 = (w.writeAll files).1 ∧
      (w.buildAll plan root only timestamp now).2.outcome
        = ((w.writeAll files).2.outcome.mapError .write).map fun _ => files := by
  rw [buildAll]
  simp only [h, true_and]
  rw [Reported.outcome_bind, h]
  change (Reported.mapError BuildFailure.write (w.writeAll files).2 >>= fun _ =>
    (pure files : Reported BuildFailure (List BuiltFile))).outcome = _
  rw [Reported.outcome_bind, Reported.outcome_mapError]
  cases (w.writeAll files).2.outcome <;> rfl

/-- **A build that fails** has either rendered no files, and then all is as it was; or it has rendered
files and fails at one of them. What it leaves then are the files before that one, and directories
on the way to these and to it. Nothing has changed exactly if there is no file before it and no
directory is new on its way. -/
theorem buildAll_failed (h : w.buildAll plan root only timestamp now = (w', r))
    (he : r.outcome = .error e) :
    (w.renderAll plan root only timestamp now).outcome = .error e ∧ w' = w ∨
      ∃ done f rest cause,
        (w.renderAll plan root only timestamp now).outcome = .ok (done ++ f :: rest) ∧
          e = .write cause ∧
          (w.writeAll done).2.outcome = .ok () ∧
          (w.writeAll done).1.writeFile f = (w', .error cause) ∧
          Wrote w.cwd done (done ++ [f]) w.tree w'.tree ∧
          (w' = w ↔ done = [] ∧ ∀ l, f.path.LeadsThrough w.cwd l → w.tree.get? l = none →
            w'.tree.get? l = none) := by
  cases hrendered : (w.renderAll plan root only timestamp now).outcome with
  | error e' =>
      obtain ⟨rfl, rfl⟩ := Prod.mk.inj ((buildAll_of_renderAll_error hrendered).symm.trans h)
      exact .inl ⟨hrendered.symm.trans he, rfl⟩
  | ok files =>
      obtain ⟨hafter, houtcome⟩ := buildAll_of_renderAll_ok hrendered
      rw [h] at hafter houtcome
      obtain rfl : w' = (w.writeAll files).1 := hafter
      have hfailed : ((w.writeAll files).2.outcome.mapError .write).map (fun _ => files)
          = .error e := houtcome.symm.trans he
      cases hwritten : (w.writeAll files).2.outcome with
      | ok _ =>
          rw [hwritten] at hfailed
          cases hfailed
      | error cause =>
          rw [hwritten] at hfailed
          obtain rfl : BuildFailure.write cause = e := Except.error.inj hfailed
          obtain ⟨done, f, rest, rfl, hdone, hf⟩ := exists_of_writeAll_error hwritten
          have hlast := wrote_of_writeFile_error hf
          rw [cwd_writeAll] at hlast
          have hwrote := (wrote_of_writeAll hdone).trans hlast
          rw [List.append_nil] at hwrote
          exact .inr ⟨done, f, rest, cause, rfl, rfl, hdone, hf, hwrote,
            eq_self_iff_of_writeFile_error hf hwrote⟩

end Builds

/-- A project with one size among its tokens. -/
def sizeProject : Workspace where
  tree.entries :=
    [(["tokens.json"],
      .file (Utf8.encode "\x7b\"size\": \x7b\"value\": 16\x7d\x7d") (.tick 0))]
  tree.ticks := 1
  cwd := []

/-- The same project with a directory for what is built. -/
def roomyProject : Workspace := { sizeProject with tree := sizeProject.tree.put ["out"] .directory }

/-- The entry of a platform with one file. -/
def outputEntry (destination format : String) : Json :=
  .obj [("files", .arr [.obj [("destination", .str destination), ("format", .str format)]])]

/-- One file. -/
def lonePlan : Fields :=
  [("source", .arr [.str "tokens.json"]),
    ("platforms", .obj [("web", outputEntry "out" "scss/variables")])]

/-- A file, and another one for which the first would have to be a directory. -/
def blockedPlan : Fields :=
  [("source", .arr [.str "tokens.json"]),
    ("platforms", .obj [
      ("web", outputEntry "out" "scss/variables"),
      ("phone", outputEntry "out/tokens.css" "css/variables")])]

/-- The new year of 2024. -/
def newYear : Moment where
  year := 2024
  month := 1
  day := 1

/-- A file in the place of a directory cannot be written, and nothing has changed. -/
theorem buildAll_failed_roomy :
    ∃ plan w' r e, BuildPlan.ofFields lonePlan = .ok plan ∧
      roomyProject.buildAll plan ⟨0, []⟩ [] none newYear = (w', r) ∧ r.outcome = .error e ∧
      e.message = "[Errno 21] Is a directory: 'out'" ∧ w' = roomyProject := by
  obtain ⟨plan, w', r, hplan, hbuilt, hpaths, hfailed⟩ : ∃ plan w' r,
      BuildPlan.ofFields lonePlan = .ok plan ∧
      roomyProject.buildAll plan ⟨0, []⟩ [] none newYear = (w', r) ∧
      (roomyProject.renderAll plan ⟨0, []⟩ [] none newYear).outcome.toOption.map
        (List.map BuiltFile.path) = some [⟨0, ["out"]⟩] ∧
      r.outcome.mapError BuildFailure.message = .error "[Errno 21] Is a directory: 'out'" :=
    ⟨_, _, _, rfl, rfl, by decide +kernel, by decide +kernel⟩
  obtain ⟨e, he, hmessage⟩ := exists_of_mapError_eq_error hfailed
  refine ⟨plan, w', r, e, hplan, hbuilt, he, hmessage, ?_⟩
  rcases buildAll_failed hbuilt he with ⟨-, hsame⟩ |
    ⟨done, f, rest, cause, hfiles, -, -, -, -, hsame⟩
  · exact hsame
  · rw [hfiles] at hpaths
    have hpaths : done.map BuiltFile.path ++ f.path :: rest.map BuiltFile.path
        = [] ++ [⟨0, ["out"]⟩] := by
      simpa [Except.toOption] using hpaths
    cases done with
    | nil =>
        have hpath : f.path = ⟨0, ["out"]⟩ := (List.cons.inj hpaths).1
        refine hsame.mpr ⟨rfl, ?_⟩
        -- The way to the file is the root alone, which is a directory.
        rintro l ⟨k, hk, rfl⟩ hnone
        rw [hpath] at hk hnone
        obtain rfl : k = 0 := Nat.lt_one_iff.mp hk
        exact absurd hnone (by decide)
    | cons g done => simp at hpaths

/-- The first file is written before the second one fails, and stays. -/
theorem blocked_build_leaves_file :
    ∃ plan w' r e, BuildPlan.ofFields blockedPlan = .ok plan ∧
      sizeProject.buildAll plan ⟨0, []⟩ [] none newYear = (w', r) ∧ r.outcome = .error e ∧
      e.message = "[Errno 17] File exists: 'out'" ∧
      sizeProject.tree.get? ["out"] = none ∧ (w'.tree.get? ["out"]).isSome ∧ w' ≠ sizeProject := by
  obtain ⟨plan, w', r, hplan, hbuilt, hfailed, hleft⟩ : ∃ plan w' r,
      BuildPlan.ofFields blockedPlan = .ok plan ∧
      sizeProject.buildAll plan ⟨0, []⟩ [] none newYear = (w', r) ∧
      r.outcome.mapError BuildFailure.message = .error "[Errno 17] File exists: 'out'" ∧
      (w'.tree.get? ["out"]).isSome :=
    ⟨_, _, _, rfl, rfl, by decide +kernel, by decide +kernel⟩
  have hbefore : sizeProject.tree.get? ["out"] = none := by decide +kernel
  obtain ⟨e, he, hmessage⟩ := exists_of_mapError_eq_error hfailed
  refine ⟨plan, w', r, e, hplan, hbuilt, he, hmessage, hbefore, hleft, fun hsame => ?_⟩
  rw [hsame, hbefore] at hleft
  cases hleft

end Workspace

end StyleTokens
