import StyleTokens.Check.Change
import StyleTokens.Check.Key
import StyleTokens.Check.Value
import StyleTokens.Project.Source
import StyleTokens.Report

/-!
Checks of the token files of a project.

* `Workspace.loadEntries`: the tokens of all files below a directory, later files over earlier ones;
* `Workspace.loadBaseline`: the tokens of a baseline directory, if there is one;
* `Workspace.compareDirectories`: the changes from a baseline directory to a directory of tokens;
* `Validation`: files with errors and warnings;
* `Workspace.checkKeys`, `Workspace.checkTokens`: the findings on keys and on values.
  Files that hold no object are findings too.
-/

namespace StyleTokens

/-! ### Changes -/

/-- The channel of the records on files. -/
def discoveryChannel : String := "design_token_compiler.checks.discovery"

/-- The channel of the records on changes. -/
def changeChannel : String := "design_token_compiler.checks.breaking"

namespace Workspace

/-- The tokens of all files below a directory. -/
def loadEntries (w : Workspace) (directory : String) :
    Reported SourceError (List TokenEntry) := do
  let files ← Reported.ofExcept ((w.tokenFiles (Pathname.read directory)).mapError .system)
  let docs ← Reported.ofExcept (w.loadDocuments files)
  let entries := docs.foldl (fun acc doc => TokenEntry.merge acc (TokenEntry.ofFields "" doc.fields))
    []
  Reported.tell [.record .debug discoveryChannel
    ("Loaded " ++ toString entries.length ++ " token paths from " ++ directory)]
  return entries

/-- The record on a comparison. -/
def comparedEvent (r : ChangeReport) : Event :=
  .record .debug changeChannel
    ("Compared " ++ toString r.oldCount ++ " baseline / " ++ toString r.newCount ++
      " current tokens: -" ++ toString r.removed.length ++ " +" ++ toString r.added.length ++
      " ~" ++ toString r.tagChanges.length)

/-- The tokens of a baseline directory; none if there is no such directory. -/
def loadBaseline (w : Workspace) (baseline : String) :
    Reported SourceError (Option (List TokenEntry)) := do
  if ← Reported.ofExcept ((w.isDirectory (Pathname.read baseline)).mapError .system) then
    return some (← w.loadEntries baseline)
  else
    Reported.tell [.record .info changeChannel ("No baseline directory at " ++ baseline)]
    return none

/-- The changes from a baseline directory to a directory of tokens; none if there is no baseline. -/
def compareDirectories (w : Workspace) (baseline tokens : String) :
    Reported SourceError (Option ChangeReport) := do
  match ← w.loadBaseline baseline with
  | none => return none
  | some old =>
    let report := compareEntries old (← w.loadEntries tokens)
    Reported.tell [comparedEvent report]
    return some report

end Workspace

/-! ### Findings -/

/-- Files with errors and warnings. -/
structure Validation where
  files : List String := []
  findings : Findings := {}
  deriving DecidableEq, Repr

namespace Validation

/-- Are there no errors? Warnings do not count. -/
def isOk (v : Validation) : Bool := v.findings.errors.isEmpty

/-- One for errors, zero otherwise. -/
def exitCode (v : Validation) : Nat := if v.isOk then 0 else 1

end Validation

/-- What stops a validation. -/
inductive ValidationFailure where
  | system (cause : SystemError)
  | encoding (cause : Utf8Error)
  | longNumber (digits : Nat)
  | check (cause : CheckFailure)
  deriving DecidableEq, Repr

/-- The words for a failure. -/
def ValidationFailure.message : ValidationFailure → String
  | .system cause => cause.message
  | .encoding cause => Utf8.errorMessage cause
  | .longNumber digits => Json.longNumberMessage (some digits)
  | .check cause => cause.message

namespace Workspace

/-- The findings on one file, given those on the document in it. -/
def validateFile (w : Workspace) (check : String → Fields → Except CheckFailure Findings)
    (root p : Pathname) : Except ValidationFailure Findings :=
  let label := p.display root
  match w.readDocument p with
  | .error (.read (.encoding cause)) => .error (.encoding cause)
  | .error (.text (.longNumber digits)) => .error (.longNumber digits)
  | .error e => .ok (.error (label ++ ": Failed to parse JSON - " ++ e.message))
  | .ok (.obj fields) => (check label fields).mapError .check
  | .ok _ => .ok (.error (label ++ ": Token file root must be a JSON object"))

/-- The findings on all token files below a directory. -/
def validate (w : Workspace) (check : String → Fields → Except CheckFailure Findings)
    (directory : String) : Except ValidationFailure Validation := do
  let root := Pathname.read directory
  let files ← (w.tokenFiles root).mapError .system
  let findings ← files.mapM (w.validateFile check root)
  return ⟨files.map (·.display root), findings.foldl Findings.append {}⟩

/-- The findings on the keys of all token files below a directory. -/
def checkKeys (w : Workspace) (directory : String) : Except ValidationFailure Validation :=
  w.validate (fun file fields => .ok ⟨keyMessages file fields, []⟩) directory

/-- The findings on the tokens of all token files below a directory. -/
def checkTokens (w : Workspace) (directory : String) : Except ValidationFailure Validation :=
  w.validate checkDeclarations directory

end Workspace

end StyleTokens
