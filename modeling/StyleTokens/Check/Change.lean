import StyleTokens.Check.Entry
import StyleTokens.Check.Similarity
import StyleTokens.Json.Shown

/-!
Changes between two sets of tokens.

* `ChangeReport`: what is gone, what is new, which type tags differ and which names may have been
  replaced by which;
* `compareEntries`: the report of two sets;
* `ChangeReport.breaksUses`: a removal or another type tag breaks what uses the tokens;
* `ChangeReport.lines`: the report for people.
-/

namespace StyleTokens

/-- A token that may have a new name. -/
structure Renaming where
  source : String
  target : String
  similarity : Binary64
  deriving DecidableEq, Repr

/-- A token with another type tag than before. -/
structure TagChange where
  path : String
  old : Json
  new : Json
  deriving Repr

/-- The changes between two sets of tokens. -/
structure ChangeReport where
  oldCount : Nat
  newCount : Nat
  removed : List String
  added : List String
  tagChanges : List TagChange
  renames : List Renaming
  deriving Repr

/-- The paths of the first set that the second one does not have. -/
def missingPaths (entries others : List TokenEntry) : List String :=
  (entries.map TokenEntry.path).filter fun p => (TokenEntry.find? others p).isNone

/-- The type tag of a path, null if there is none. -/
def tagAt (entries : List TokenEntry) (path : String) : Json :=
  match TokenEntry.find? entries path with
  | some r => r.tag
  | none => .null

/-- The changes from a baseline to a current set. Paths come in the order of their set. -/
def compareEntries (baseline current : List TokenEntry) : ChangeReport :=
  let removed := missingPaths baseline current
  let added := missingPaths current baseline
  { oldCount := baseline.length
    newCount := current.length
    removed
    added
    tagChanges := baseline.filterMap fun r =>
      match TokenEntry.find? current r.path with
      | some s => if r.tag.same s.tag then none else some ⟨r.path, r.tag, s.tag⟩
      | none => none
    renames := removed.flatMap fun old => added.filterMap fun new =>
      if (tagAt baseline old).same (tagAt current new) && isSimilar old new then
        some ⟨old, new, similarity old new⟩
      else none }

namespace ChangeReport

/-- Does the change break what uses the tokens? -/
def breaksUses (r : ChangeReport) : Bool := !r.removed.isEmpty || !r.tagChanges.isEmpty

/-- One for a breaking change, zero otherwise. -/
def exitCode (r : ChangeReport) : Nat := if r.breaksUses then 1 else 0

/-- The first suggestion for a removed path. -/
def renamingOf? (r : ChangeReport) (path : String) : Option Renaming :=
  r.renames.find? fun s => s.source == path

/-- The number of new tokens that the report lists. -/
def previewLength : Nat := 10

/-- The lines on removed tokens. -/
def removedLines (r : ChangeReport) : List String :=
  if r.removed = [] then []
  else ["❌ BREAKING: " ++ toString r.removed.length ++ " token(s) removed:", ""] ++
    (r.removed.flatMap fun path =>
      ("   - " ++ path) :: (match r.renamingOf? path with
        | some s => ["     (possibly renamed to \"" ++ s.target ++ "\")"]
        | none => [])) ++ [""]

/-- The lines on type tags. -/
def tagLines (r : ChangeReport) : List String :=
  if r.tagChanges.isEmpty then []
  else ["❌ BREAKING: " ++ toString r.tagChanges.length ++ " token type(s) changed:", ""] ++
    (r.tagChanges.map fun c =>
      "   - " ++ c.path ++ ": " ++ c.old.plain ++ " → " ++ c.new.plain) ++ [""]

/-- The lines on new tokens. -/
def addedLines (r : ChangeReport) : List String :=
  if r.added = [] then []
  else ["✅ " ++ toString r.added.length ++ " new token(s) added (non-breaking):", ""] ++
    (r.added.take previewLength).map ("   + " ++ ·) ++
    (if previewLength < r.added.length then
      ["   ... and " ++ toString (r.added.length - previewLength) ++ " more"] else []) ++ [""]

/-- The verdict. -/
def verdictLines (r : ChangeReport) : List String :=
  if r.breaksUses then
    ["⚠️  BREAKING CHANGES DETECTED!", "", "   This will require a MAJOR version bump.",
      "   Please update the migration guide before merging."]
  else if r.added = [] then ["✅ No changes detected."]
  else
    ["✅ No breaking changes detected.", "",
      "   New tokens added - this will be a MINOR version bump."]

/-- The report for people: removals and type tags first, the verdict last. -/
def lines (r : ChangeReport) : List String :=
  ["  Baseline: " ++ toString r.oldCount ++ " tokens",
    "  Current:  " ++ toString r.newCount ++ " tokens", ""] ++
    r.removedLines ++ r.tagLines ++ r.addedLines ++ r.verdictLines

end ChangeReport

end StyleTokens
