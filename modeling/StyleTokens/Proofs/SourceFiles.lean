import StyleTokens.Project.Check
import StyleTokens.Proofs.Directories
import StyleTokens.Proofs.LongNumbers
import StyleTokens.Proofs.Utf8

/-!
What becomes of the content of files.

* `Workspace.HoldsNoText`, `Workspace.HoldsValue`, `Workspace.HoldsLongNumber`: a file whose bytes
  are those of no text, one that holds the text of a value, and one with a whole number of too many
  digits; `Workspace.HoldsLongNumber.exists_run` finds the digits in its text, and
  `Workspace.exists_holdsLongNumber` has such files;
* `Workspace.loadDocument_eq_ok_iff`, `Workspace.loadDocument_unreported_iff`: when there is a
  document in a file, and when there is an error without a message for people;
* `Workspace.FileFindings`: the findings on a file by what is in it;
  `Workspace.validateFile_eq_ok_iff`, `Workspace.validateFile_encoding_iff` and
  `Workspace.validateFile_longNumber_iff`: when there are any;
* `Workspace.sourceFiles_reported_iff`: the same for lists of files and for directories.
  `Workspace.undecodable_source_unreported` has a file that holds no text.
-/

namespace StyleTokens.Workspace

variable (w : Workspace) {p : Pathname} {v : Json}

/-! ### What files hold -/

/-- There is a file, and its bytes are those of no text. -/
def HoldsNoText (p : Pathname) : Prop :=
  ∃ bytes, w.tree.readBytes w.cwd p = .ok bytes ∧ ∀ s, bytes ≠ Utf8.encode s

/-- There is a file, and it holds a text. -/
def HoldsText (p : Pathname) (s : String) : Prop :=
  w.tree.readBytes w.cwd p = .ok (Utf8.encode s)

/-- There is a file, and it holds the text of a value. -/
def HoldsValue (p : Pathname) (v : Json) : Prop :=
  ∃ s, w.HoldsText p s ∧ Json.readChars (Utf8.unifyNewlines s.toList) = .ok v

/-- There is a file, and it holds a text in which a whole number of too many digits is met, with so
many of them. -/
def HoldsLongNumber (p : Pathname) (digits : Nat) : Prop :=
  ∃ s, w.HoldsText p s ∧
    Json.readChars (Utf8.unifyNewlines s.toList) = .error (.longNumber digits)

/-- What path names lead to: nothing that can be read, a file with bytes that are no text, or a file
with a text. -/
lemma cases_content (p : Pathname) : (∃ cause, w.tree.readBytes w.cwd p = .error cause) ∨
    w.HoldsNoText p ∨ ∃ s, w.HoldsText p s := by
  cases hbytes : w.tree.readBytes w.cwd p with
  | error cause => exact .inl ⟨cause, rfl⟩
  | ok bytes =>
      by_cases htext : ∃ s, bytes = Utf8.encode s
      · obtain ⟨s, rfl⟩ := htext
        exact .inr (.inr ⟨s, hbytes⟩)
      · exact .inr (.inl ⟨bytes, hbytes, not_exists.mp htext⟩)

section LongNumbers

variable {w}

/-- **The digits of the number stand in the text.** -/
theorem HoldsLongNumber.exists_run {digits : Nat} (h : w.HoldsLongNumber p digits) :
    ∃ s, w.HoldsText p s ∧ Json.HasRun (Utf8.unifyNewlines s.toList) digits := by
  obtain ⟨s, htext, hread⟩ := h
  exact ⟨s, htext, Json.hasRun_of_readChars hread⟩

/-- **Every long number is met** where a file holds the text of a value with one. -/
theorem exists_holdsLongNumber {sort : Int → Prop} (hv : v.IsBuilt sort)
    (hlong : v.holdsLongNumber = true) (h : w.HoldsText p v.written) :
    ∃ digits, w.HoldsLongNumber p digits := by
  have hreturn : '\r' ∉ v.written.toList := by
    intro hmem
    rw [Json.written, String.toList_ofList] at hmem
    exact absurd (Json.isPrintable_of_mem_writtenChars hmem) (by decide)
  obtain ⟨digits, hread⟩ := Json.read_written_long hv hlong
  refine ⟨digits, _, h, ?_⟩
  rw [Utf8.unifyNewlines_eq_self hreturn]
  exact hread

end LongNumbers

section Content

variable {w} {cause : SystemError} {s : String}

lemma readDocument_of_unreadable (h : w.tree.readBytes w.cwd p = .error cause) :
    w.readDocument p = .error (.read (.system cause)) := by
  rw [readDocument, FileTree.readText, h]
  rfl

lemma exists_readDocument_of_noText (h : w.HoldsNoText p) :
    ∃ cause, w.readDocument p = .error (.read (.encoding cause)) := by
  obtain ⟨bytes, hbytes, hnone⟩ := h
  cases hdecode : Utf8.decode bytes with
  | ok cs => exact absurd (Utf8.decode_eq_ok_iff.mp hdecode) (hnone _)
  | error cause =>
      refine ⟨cause, ?_⟩
      rw [readDocument, FileTree.readText, hbytes]
      change ((Utf8.decode bytes).mapError ReadError.encoding >>= _).mapError _ >>= _ = _
      rw [hdecode]
      rfl

lemma readDocument_of_text (h : w.HoldsText p s) : w.readDocument p
    = (Json.readChars (Utf8.unifyNewlines s.toList)).mapError .text := by
  rw [readDocument, FileTree.readText, h]
  change ((Utf8.decode (Utf8.encode s)).mapError ReadError.encoding >>= _).mapError _ >>= _ = _
  rw [Utf8.decode_encode]
  rfl

/-- What reading gives comes from a text unless the content cannot be read. -/
lemma exists_text_of_readDocument {r : Except DocumentError Json} (h : w.readDocument p = r)
    (hr : ∀ cause, r ≠ .error (.read cause)) : ∃ s, w.HoldsText p s ∧
      (Json.readChars (Utf8.unifyNewlines s.toList)).mapError .text = r := by
  rcases w.cases_content p with ⟨cause, hbytes⟩ | hnone | ⟨s, htext⟩
  · exact absurd (h.symm.trans (readDocument_of_unreadable hbytes)) (hr _)
  · obtain ⟨cause, hread⟩ := exists_readDocument_of_noText hnone
    exact absurd (h.symm.trans hread) (hr _)
  · exact ⟨s, htext, (readDocument_of_text htext).symm.trans h⟩

lemma readDocument_eq_ok_iff : w.readDocument p = .ok v ↔ w.HoldsValue p v := by
  constructor
  · intro h
    obtain ⟨s, htext, hvalue⟩ := exists_text_of_readDocument h (by simp)
    exact ⟨s, htext, eq_ok_of_mapError_eq_ok hvalue⟩
  · rintro ⟨s, htext, hvalue⟩
    rw [readDocument_of_text htext, hvalue]
    rfl

/-- Reading fails at a whole number of too many digits exactly if the file holds such a number. -/
lemma readDocument_eq_longNumber_iff {digits : Nat} :
    w.readDocument p = .error (.text (.longNumber digits)) ↔ w.HoldsLongNumber p digits := by
  constructor
  · intro h
    obtain ⟨s, htext, hlong⟩ := exists_text_of_readDocument h (by simp)
    obtain ⟨e, he, hcause⟩ := exists_of_mapError_eq_error hlong
    obtain rfl := DocumentError.text.inj hcause
    exact ⟨s, htext, he⟩
  · rintro ⟨s, htext, hlong⟩
    rw [readDocument_of_text htext, hlong]
    rfl

/-- Reading fails for the bytes of a file exactly if they are no text. -/
lemma exists_readDocument_eq_encoding_iff :
    (∃ cause, w.readDocument p = .error (.read (.encoding cause))) ↔ w.HoldsNoText p := by
  refine ⟨fun ⟨cause, h⟩ => ?_, exists_readDocument_of_noText⟩
  rcases w.cases_content p with ⟨e, hbytes⟩ | hnone | ⟨s, htext⟩
  · rw [readDocument_of_unreadable hbytes] at h
    cases h
  · exact hnone
  · rw [readDocument_of_text htext] at h
    obtain ⟨e, -, he⟩ := exists_of_mapError_eq_error h
    cases he

/-! ### Documents in files -/

/-- Reading fails for a null character exactly if the path name has one. -/
lemma fault_eq_nullCharacter_iff (h : w.tree.readBytes w.cwd p = .error cause) :
    cause.fault = .nullCharacter ↔ p.parts.any hasNull = true := by
  rw [FileTree.readBytes, FileTree.follow] at h
  cases hfault : p.fault? with
  | some fault =>
      rw [hfault] at h
      obtain rfl := Except.error.inj h
      rw [Pathname.fault?] at hfault
      split at hfault
      · next hnull =>
          cases hfault
          exact iff_of_true rfl hnull
      · next hnull =>
          split at hfault <;> cases hfault
          exact iff_of_false (by rintro ⟨⟩) hnull
  | none =>
      rw [hfault] at h
      have hnull : ¬ p.parts.any hasNull = true := by
        intro hnull
        rw [Pathname.fault?, if_pos hnull] at hfault
        cases hfault
      refine iff_of_false ?_ hnull
      dsimp only at h
      split at h
      · next fault hwalk =>
          cases h
          rintro rfl
          exact FileTree.walk_ne_nullCharacter hwalk
      · split at h <;> cases h <;> rintro ⟨⟩

/-- A file is found only under names without null characters. -/
lemma not_hasNull_of_readBytes {bytes : List UInt8} (h : w.tree.readBytes w.cwd p = .ok bytes) :
    ¬ p.parts.any hasNull = true := by
  intro hnull
  rw [FileTree.readBytes, FileTree.follow, Pathname.fault?, if_pos hnull] at h
  cases h

/-- There is a document in a file exactly if it holds an object. -/
lemma loadDocument_eq_ok_iff {doc : Document} : w.loadDocument p = .ok doc ↔
    w.HoldsValue p (.obj doc.fields) ∧ doc.label = p.text := by
  obtain ⟨label, fields⟩ := doc
  rw [← readDocument_eq_ok_iff, loadDocument]
  cases hread : w.readDocument p with
  | error e => exact iff_of_false (by rintro ⟨⟩) (by rintro ⟨⟨⟩, -⟩)
  | ok v =>
      cases v with
      | obj fields =>
          constructor
          · rintro ⟨⟩
            exact ⟨rfl, rfl⟩
          · rintro ⟨⟨⟩, rfl⟩
            rfl
      | _ => exact iff_of_false (by rintro ⟨⟩) (by rintro ⟨⟨⟩, -⟩)

/-- There is an error without a message for people exactly if the file holds no text, a whole number
of too many digits is met in it, or the path name has a null character. -/
lemma loadDocument_unreported_iff : (∃ e, w.loadDocument p = .error e ∧ e.isReported = false) ↔
    w.HoldsNoText p ∨ (∃ digits, w.HoldsLongNumber p digits) ∨ p.parts.any hasNull = true := by
  simp only [← exists_readDocument_eq_encoding_iff, ← readDocument_eq_longNumber_iff]
  rw [loadDocument]
  rcases w.cases_content p with ⟨cause, hbytes⟩ | hnone | ⟨s, htext⟩
  · rw [← fault_eq_nullCharacter_iff hbytes, readDocument_of_unreadable hbytes]
    obtain ⟨fault, path⟩ := cause
    cases fault <;> simp [Except.mapError, SourceError.ofDocument, SourceError.isReported, bind,
      Except.bind]
  · obtain ⟨cause, hread⟩ := exists_readDocument_of_noText hnone
    rw [hread]
    exact iff_of_true ⟨_, rfl, rfl⟩ (.inl ⟨cause, rfl⟩)
  · rw [or_iff_left (not_hasNull_of_readBytes htext), readDocument_of_text htext]
    cases Json.readChars (Utf8.unifyNewlines s.toList) with
    | error cause =>
        cases cause <;> simp [Except.mapError, SourceError.ofDocument, SourceError.isReported, bind,
          Except.bind]
    | ok v =>
        refine iff_of_false ?_ (by rintro (⟨_, ⟨⟩⟩ | ⟨_, ⟨⟩⟩))
        rintro ⟨e, h, hreported⟩
        cases v <;> cases h <;> cases hreported

end Content

/-! ### Findings on files -/

section Findings

variable (check : String → Fields → Except CheckFailure Findings) (root : Pathname)

/-- The findings on a file, by what is in it. A file that cannot be read, one whose text is
malformed and one that holds no object are errors, and an object is checked. -/
inductive FileFindings (p : Pathname) : Findings → Prop where
  | unreadable {cause : SystemError} : w.tree.readBytes w.cwd p = .error cause →
      FileFindings p (.error (p.display root ++ ": Failed to parse JSON - " ++ cause.message))
  | noValue {s : String} {cause : Json.SyntaxError} : w.HoldsText p s →
      Json.readChars (Utf8.unifyNewlines s.toList) = .error (.malformed cause) →
      FileFindings p (.error (p.display root ++ ": Failed to parse JSON - " ++ cause.message))
  | noObject {v : Json} : w.HoldsValue p v → v.fields? = none →
      FileFindings p (.error (p.display root ++ ": Token file root must be a JSON object"))
  | object {fields : Fields} {f : Findings} : w.HoldsValue p (.obj fields) →
      check (p.display root) fields = .ok f → FileFindings p f

variable {w check root} {f : Findings}

lemma eq_obj_of_fields? {fields : Fields} (h : v.fields? = some fields) : v = .obj fields := by
  cases v <;> cases h
  rfl

/-- An object is checked. -/
lemma validateFile_of_object {fields : Fields} (h : w.HoldsValue p (.obj fields)) :
    w.validateFile check root p = (check (p.display root) fields).mapError .check := by
  rw [validateFile, readDocument_eq_ok_iff.mpr h]

/-- Any other value is an error. -/
lemma validateFile_of_noObject (h : w.HoldsValue p v) (hv : v.fields? = none) :
    w.validateFile check root p
      = .ok (.error (p.display root ++ ": Token file root must be a JSON object")) := by
  rw [validateFile, readDocument_eq_ok_iff.mpr h]
  cases v with
  | obj fields => cases hv
  | _ => rfl

/-- So is a malformed text. -/
lemma validateFile_of_noValue {s : String} {cause : Json.SyntaxError} (h : w.HoldsText p s)
    (hcause : Json.readChars (Utf8.unifyNewlines s.toList) = .error (.malformed cause)) :
    w.validateFile check root p
      = .ok (.error (p.display root ++ ": Failed to parse JSON - " ++ cause.message)) := by
  rw [validateFile, readDocument_of_text h, hcause]
  rfl

/-- There are findings on a file exactly as its content tells. -/
lemma validateFile_eq_ok_iff :
    w.validateFile check root p = .ok f ↔ w.FileFindings check root p f := by
  constructor
  · intro h
    rcases w.cases_content p with ⟨cause, hbytes⟩ | hnone | ⟨s, htext⟩
    · rw [validateFile, readDocument_of_unreadable hbytes] at h
      cases h
      exact .unreadable hbytes
    · obtain ⟨cause, hread⟩ := exists_readDocument_of_noText hnone
      rw [validateFile, hread] at h
      cases h
    · cases hvalue : Json.readChars (Utf8.unifyNewlines s.toList) with
      | error cause =>
          cases cause with
          | malformed cause =>
              rw [validateFile_of_noValue htext hvalue] at h
              cases h
              exact .noValue htext hvalue
          | longNumber digits =>
              rw [validateFile, readDocument_eq_longNumber_iff.mpr ⟨s, htext, hvalue⟩] at h
              cases h
      | ok v =>
          have hholds : w.HoldsValue p v := ⟨s, htext, hvalue⟩
          cases hfields : v.fields? with
          | none =>
              rw [validateFile_of_noObject hholds hfields] at h
              cases h
              exact .noObject hholds hfields
          | some fields =>
              obtain rfl : v = .obj fields := eq_obj_of_fields? hfields
              rw [validateFile_of_object hholds] at h
              exact .object hholds (eq_ok_of_mapError_eq_ok h)
  · intro h
    cases h with
    | unreadable hbytes =>
        rw [validateFile, readDocument_of_unreadable hbytes]
        rfl
    | noValue htext hvalue => exact validateFile_of_noValue htext hvalue
    | noObject hholds hfields => exact validateFile_of_noObject hholds hfields
    | object hholds hcheck =>
        rw [validateFile_of_object hholds]
        exact mapError_eq_ok_iff.mpr hcheck

/-- A validation that ends at a value ends in the check. -/
lemma isCheck_of_validateFile {e : ValidationFailure} (hv : w.readDocument p = .ok v)
    (h : w.validateFile check root p = .error e) : ∃ cause, .check cause = e := by
  rw [validateFile, hv] at h
  cases v with
  | obj fields =>
      obtain ⟨cause, -, he⟩ := exists_of_mapError_eq_error h
      exact ⟨cause, he⟩
  | _ => cases h

/-- A validation ends at the bytes of a file exactly if the file holds no text. -/
lemma validateFile_encoding_iff :
    (∃ cause, w.validateFile check root p = .error (.encoding cause)) ↔ w.HoldsNoText p := by
  rw [← exists_readDocument_eq_encoding_iff]
  refine exists_congr fun cause => ?_
  cases hread : w.readDocument p with
  | error e =>
      rw [validateFile, hread]
      rcases e with (cause' | cause') | (cause' | digits) <;> simp
  | ok v =>
      refine iff_of_false (fun h => ?_) (by rintro ⟨⟩)
      obtain ⟨_, ⟨⟩⟩ := isCheck_of_validateFile hread h

/-- It ends at a whole number of too many digits exactly if the file holds such a number. -/
lemma validateFile_longNumber_iff {digits : Nat} :
    w.validateFile check root p = .error (.longNumber digits) ↔ w.HoldsLongNumber p digits := by
  rw [← readDocument_eq_longNumber_iff]
  cases hread : w.readDocument p with
  | error e =>
      rw [validateFile, hread]
      rcases e with (cause' | cause') | (cause' | digits') <;> simp
  | ok v =>
      refine iff_of_false (fun h => ?_) (by rintro ⟨⟩)
      obtain ⟨_, ⟨⟩⟩ := isCheck_of_validateFile hread h

end Findings

/-! ### Lists of files and directories -/

section Files

variable {w} {check : String → Fields → Except CheckFailure Findings}

lemma loadDocuments_eq_ok_iff {paths : List Pathname} {docs : List Document} :
    w.loadDocuments paths = .ok docs ↔
      List.Forall₂ (fun p doc => w.HoldsValue p (.obj doc.fields) ∧ doc.label = p.text)
        paths docs := by
  rw [loadDocuments, mapM_eq_ok_iff]
  simp only [loadDocument_eq_ok_iff]

/-- There is a document in a file exactly if the file holds an object. -/
lemma exists_loadDocument_eq_ok_iff : (∃ doc, w.loadDocument p = .ok doc) ↔
    ∃ fields, w.HoldsValue p (.obj fields) := by
  constructor
  · rintro ⟨doc, h⟩
    exact ⟨doc.fields, (loadDocument_eq_ok_iff.mp h).1⟩
  · rintro ⟨fields, h⟩
    exact ⟨⟨p.text, fields⟩, loadDocument_eq_ok_iff.mpr ⟨h, rfl⟩⟩

lemma loadDocuments_unreported_iff {paths : List Pathname} :
    (∃ e, w.loadDocuments paths = .error e ∧ e.isReported = false) ↔
      ∃ before p after, paths = before ++ p :: after ∧
        (∀ q ∈ before, ∃ fields, w.HoldsValue q (.obj fields)) ∧
        (w.HoldsNoText p ∨ (∃ digits, w.HoldsLongNumber p digits) ∨
          p.parts.any hasNull = true) := by
  simp only [loadDocuments, mapM_eq_error_iff, ← loadDocument_unreported_iff,
    exists_loadDocument_eq_ok_iff]
  constructor
  · rintro ⟨e, ⟨before, p, after, hpaths, hbefore, he⟩, hreported⟩
    exact ⟨before, p, after, hpaths, hbefore, e, he, hreported⟩
  · rintro ⟨before, p, after, hpaths, hbefore, e, he, hreported⟩
    exact ⟨e, ⟨before, p, after, hpaths, hbefore, he⟩, hreported⟩

variable {directory : String}

lemma validate_eq_ok_iff {r : Validation} : w.validate check directory = .ok r ↔
    ∃ files fs, w.tokenFiles (Pathname.read directory) = .ok files ∧
      List.Forall₂ (w.FileFindings check (Pathname.read directory)) files fs ∧
      r = ⟨files.map (·.display (Pathname.read directory)), fs.foldl Findings.append {}⟩ := by
  have hfiles : ∀ files fs, files.mapM (w.validateFile check (Pathname.read directory)) = .ok fs ↔
      List.Forall₂ (w.FileFindings check (Pathname.read directory)) files fs := by
    intro files fs
    rw [mapM_eq_ok_iff]
    simp only [validateFile_eq_ok_iff]
  simp only [← hfiles]
  rw [validate]
  constructor
  · intro h
    obtain ⟨files, htokens, h⟩ := exists_of_bind_eq_ok h
    obtain ⟨fs, hfs, h⟩ := exists_of_bind_eq_ok h
    exact ⟨files, fs, eq_ok_of_mapError_eq_ok htokens, hfs, (Except.ok.inj h).symm⟩
  · rintro ⟨files, fs, htokens, hfs, rfl⟩
    rw [mapError_eq_ok_iff.mpr htokens, ok_bind, hfs]
    rfl

/-- A validation that does not end at the directory ends at a file, with findings on those before
it. -/
lemma validate_eq_error_iff {e : ValidationFailure} (he : ∀ cause, e ≠ .system cause) :
    w.validate check directory = .error e ↔
      ∃ before p after,
        w.tokenFiles (Pathname.read directory) = .ok (before ++ p :: after) ∧
        (∀ q ∈ before, ∃ f, w.FileFindings check (Pathname.read directory) q f) ∧
        w.validateFile check (Pathname.read directory) p = .error e := by
  simp only [← validateFile_eq_ok_iff]
  constructor
  · intro h
    rw [validate, bind_eq_error_iff] at h
    rcases h with h | ⟨files, htokens, h⟩
    · obtain ⟨cause, -, hcause⟩ := exists_of_mapError_eq_error h
      exact absurd hcause.symm (he cause)
    · rcases bind_eq_error_iff.mp h with h | ⟨fs, -, h⟩
      · obtain ⟨before, p, after, rfl, hbefore, hp⟩ := mapM_eq_error_iff.mp h
        exact ⟨before, p, after, eq_ok_of_mapError_eq_ok htokens, hbefore, hp⟩
      · cases h
  · rintro ⟨before, p, after, htokens, hbefore, hp⟩
    rw [validate, mapError_eq_ok_iff.mpr htokens, ok_bind,
      mapM_eq_error_iff.mpr ⟨before, p, after, rfl, hbefore, hp⟩]
    rfl

lemma validate_encoding_iff : (∃ cause, w.validate check directory = .error (.encoding cause)) ↔
    ∃ before p after,
      w.tokenFiles (Pathname.read directory) = .ok (before ++ p :: after) ∧
      (∀ q ∈ before, ∃ f, w.FileFindings check (Pathname.read directory) q f) ∧
      w.HoldsNoText p := by
  have hends : ∀ cause, w.validate check directory = .error (.encoding cause) ↔ _ :=
    fun cause => validate_eq_error_iff (by simp)
  have hencoding : ∀ p, w.HoldsNoText p ↔
      ∃ cause, w.validateFile check (Pathname.read directory) p = .error (.encoding cause) :=
    fun _ => validateFile_encoding_iff.symm
  simp only [hends, hencoding]
  constructor
  · rintro ⟨cause, before, p, after, htokens, hbefore, hp⟩
    exact ⟨before, p, after, htokens, hbefore, cause, hp⟩
  · rintro ⟨before, p, after, htokens, hbefore, cause, hp⟩
    exact ⟨cause, before, p, after, htokens, hbefore, hp⟩

lemma validate_longNumber_iff {digits : Nat} :
    w.validate check directory = .error (.longNumber digits) ↔
      ∃ before p after,
        w.tokenFiles (Pathname.read directory) = .ok (before ++ p :: after) ∧
        (∀ q ∈ before, ∃ f, w.FileFindings check (Pathname.read directory) q f) ∧
        w.HoldsLongNumber p digits := by
  rw [validate_eq_error_iff (by simp)]
  simp only [validateFile_longNumber_iff]

end Files

/-- **What the content of files leads to.**
* Files are documents exactly if each of them holds an object.
* Loading them fails without a message for people exactly if the first one that holds no object
  holds no text or a whole number of too many digits, or has a path name with a null character.
* The validation of a directory has a result exactly if there are findings on each of its files, and
  the result names the files and has the findings of one after the other: an error for what cannot
  be read, is malformed or is no object, and what the check finds in an object.
* It ends at the bytes of a file exactly if there are findings on the files before it and it holds
  no text.
* It ends at a number in a file exactly if there are findings on the files before it and reading its
  text meets a whole number of too many digits. -/
theorem sourceFiles_reported_iff (paths : List Pathname)
    (check : String → Fields → Except CheckFailure Findings) (directory : String) :
    (∀ docs, w.loadDocuments paths = .ok docs ↔
      List.Forall₂ (fun p doc => w.HoldsValue p (.obj doc.fields) ∧ doc.label = p.text)
        paths docs) ∧
    ((∃ e, w.loadDocuments paths = .error e ∧ e.isReported = false) ↔
      ∃ before p after, paths = before ++ p :: after ∧
        (∀ q ∈ before, ∃ fields, w.HoldsValue q (.obj fields)) ∧
        (w.HoldsNoText p ∨ (∃ digits, w.HoldsLongNumber p digits) ∨
          p.parts.any hasNull = true)) ∧
    (∀ r, w.validate check directory = .ok r ↔
      ∃ files fs, w.tokenFiles (Pathname.read directory) = .ok files ∧
        List.Forall₂ (w.FileFindings check (Pathname.read directory)) files fs ∧
        r = ⟨files.map (·.display (Pathname.read directory)), fs.foldl Findings.append {}⟩) ∧
    ((∃ cause, w.validate check directory = .error (.encoding cause)) ↔
      ∃ before p after,
        w.tokenFiles (Pathname.read directory) = .ok (before ++ p :: after) ∧
        (∀ q ∈ before, ∃ f, w.FileFindings check (Pathname.read directory) q f) ∧
        w.HoldsNoText p) ∧
    ∀ digits, w.validate check directory = .error (.longNumber digits) ↔
      ∃ before p after,
        w.tokenFiles (Pathname.read directory) = .ok (before ++ p :: after) ∧
        (∀ q ∈ before, ∃ f, w.FileFindings check (Pathname.read directory) q f) ∧
        w.HoldsLongNumber p digits :=
  ⟨fun _ => loadDocuments_eq_ok_iff, loadDocuments_unreported_iff, fun _ => validate_eq_ok_iff,
    validate_encoding_iff, fun _ => validate_longNumber_iff⟩

/-- A project with one token file, whose only byte begins no character. -/
def byteProject : Workspace where
  tree := { entries := [(["tokens"], .directory), (["tokens", "ink.json"], .file [0xFF] (.set 0))] }
  cwd := []

/-- The byte is met by the loader, for which there is no message for people, and by both validators,
which have no result. -/
theorem undecodable_source_unreported :
    byteProject.loadDocuments [⟨0, ["tokens", "ink.json"]⟩]
        = .error (.undecodable ⟨.invalidStart, 0, 1, 0xFF⟩) ∧
      (SourceError.undecodable ⟨.invalidStart, 0, 1, 0xFF⟩).isReported = false ∧
      byteProject.checkKeys "tokens" = .error (.encoding ⟨.invalidStart, 0, 1, 0xFF⟩) ∧
      byteProject.checkTokens "tokens" = .error (.encoding ⟨.invalidStart, 0, 1, 0xFF⟩) := by
  exact ⟨rfl, rfl, by decide +kernel, by decide +kernel⟩

end StyleTokens.Workspace
