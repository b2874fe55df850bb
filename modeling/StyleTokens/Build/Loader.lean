import StyleTokens.Build.Configuration
import StyleTokens.Build.Plan

/-!
Configuration files of builds.

The one validation of such files is that of plans of builds.

* `LoadRequest`, `LoadError`, `Loaded`, `LoadCache`: requests, errors, results and caches, with
  `LoadError.isReported` for the errors that have a message for people;
* `Workspace.load`: what is in a file, and the cache afterwards;
* `Workspace.loadPlan`: the plan of a build.
-/

namespace StyleTokens

/-- Which file to load and how, and whether it is the plan of a build. -/
abbrev LoadRequest := ConfigRequest Bool

/-- Why a file cannot be loaded. -/
abbrev LoadError := ConfigError PlanError

/-- The words for an error. -/
def LoadError.message (e : LoadError) : String := e.describe PlanError.message

/-- Has the error a message for people? Names that no file can have, whole numbers of too many
digits, and lists and objects in the place of names, are not dealt with. -/
def LoadError.isReported : LoadError → Bool
  | .system _ => false
  | .longNumber _ => false
  | .invalid (.compositeName _) => false
  | _ => true

/-- What a file gives: a value or a plan. -/
abbrev Loaded := ConfigValue BuildPlan

/-- The plan that a file gives. -/
@[match_pattern]
abbrev Loaded.plan (plan : BuildPlan) : Loaded := .valid plan

/-- What was loaded before. -/
abbrev LoadCache := ConfigCache Bool BuildPlan

/-- An object is left as it is, or it must be the plan of a build. -/
def planValidations : Validations Bool PlanError BuildPlan
  | true => some BuildPlan.ofFields
  | false => none

namespace Workspace

/-- What a file gives, and the cache afterwards. -/
def load (w : Workspace) (env : Environment) (place : Pathname) (r : LoadRequest)
    (cache : LoadCache) : LoadCache × Reported LoadError Loaded :=
  w.loadConfig planValidations env place r cache

/-- The request for the plan of a build: the file at a path name, or the file `platforms` of
the data directory. -/
def buildRequest (path : Option Pathname) : LoadRequest :=
  match path with
  | none => { file := "platforms", mode := LoadMode.object.name, validate := true }
  | some p =>
    { file := p.name, mode := LoadMode.object.name, validate := true,
      baseDirectory := some p.parent.text }

/-- The plan of a build, and the cache afterwards. -/
def loadPlan (w : Workspace) (env : Environment) (place : Pathname)
    (path : Option Pathname) (cache : LoadCache) :
    LoadCache × Reported LoadError BuildPlan :=
  let (cache, r) := w.load env place (buildRequest path) cache
  (cache, do
    match ← r with
    | .plan p => return p
    | .document _ => .ofExcept (.error .validatorWithoutMode))

end Workspace

end StyleTokens
