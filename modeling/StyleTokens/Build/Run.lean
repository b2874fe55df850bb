import StyleTokens.Build.Plan
import StyleTokens.Project.Source
import StyleTokens.Report
import StyleTokens.Token.Resolution

/-!
Building the files of platforms.

Every platform resolves its own sources, so that platforms share no tokens, and files are written only
after all of them are rendered.

* `BuiltFile`: the content of a file with its path name and its platform;
* `PlatformError`: a platform that failed, and why;
* `Workspace.platformTokens`, `Workspace.renderPlatform`: the tokens and the files of a platform;
* `Workspace.renderAll`: the files of the selected platforms, in the order of the plan;
* `Workspace.writeAll`, `Workspace.buildAll`: the files on the tree.
-/

namespace StyleTokens

/-- The content of a file with its path name and its platform. -/
structure BuiltFile where
  platform : String
  path : Pathname
  content : String
  deriving DecidableEq, Repr

/-- Why a platform failed. -/
inductive BuildCause where
  | source (cause : SourceError)
  | resolve (cause : ResolveError)
  | output (cause : OutputError)

/-- The words for a cause. -/
def BuildCause.message : BuildCause → String
  | .source cause => cause.message
  | .resolve cause => cause.message
  | .output cause => cause.message

/-- A platform that failed, and why. -/
structure PlatformError where
  platform : String
  cause : BuildCause

/-- The words for an error. -/
def PlatformError.message (e : PlatformError) : String :=
  "Platform '" ++ e.platform ++ "' failed: " ++ e.cause.message

/-- Why a build failed. -/
inductive BuildFailure where
  | plan (cause : PlanError)
  | platform (cause : PlatformError)
  | write (cause : SystemError)

/-- The words for a failure. -/
def BuildFailure.message : BuildFailure → String
  | .plan cause => cause.message
  | .platform cause => cause.message
  | .write cause => cause.message

/-- The channel of the records on builds. -/
def buildChannel : String := "design_token_compiler.pipeline.orchestrator"

/-- The topic of the traces on builds. -/
def buildTopic : String := "build"

namespace Workspace

/-! ### One platform -/

/-- The resolved tokens in files. -/
def loadTokens (w : Workspace) (paths : List Pathname) : Reported BuildCause TokenList := do
  let docs ← Reported.ofExcept ((w.loadDocuments paths).mapError .source)
  Reported.tell (resolveEvents docs)
  Reported.ofExcept ((resolve docs).mapError .resolve)

/-- The tokens of a platform after its transforms. -/
def platformTokens (w : Workspace) (plan : BuildPlan) (p : Platform) (root : Pathname) :
    Reported BuildCause TokenList := do
  let c ← w.loadTokens ((plan.sourcesOf p).map fun s => root.join (Pathname.read s))
  Reported.ofExcept ((c.transform p.transforms (Fields.merge plan.options p.options)).mapError
    .output)

/-- The options of a file: those of the plan, of the platform and of the file, the later over
the earlier, and the time stamp over all. -/
def fileOptions (plan : BuildPlan) (p : Platform) (spec : OutputSpec) (stamp : String) :
    Fields :=
  Fields.put "timestamp" (.str stamp)
    (Fields.merge (Fields.merge plan.options p.options) spec.options)

/-- One file of a platform, given its tokens. -/
def renderFile (plan : BuildPlan) (p : Platform) (root : Pathname) (stamp : String)
    (now : Moment) (c : TokenList) (spec : OutputSpec) : Reported BuildCause BuiltFile := do
  let chosen ← Reported.ofExcept ((c.selected spec.filter).mapError .output)
  let content ← Reported.ofExcept
    ((chosen.content spec.format (fileOptions plan p spec stamp) now).mapError .output)
  Reported.tell [.trace buildTopic (p.name ++ ": " ++ spec.format ++ " → " ++ spec.destination ++
    " (" ++ toString chosen.size ++ " tokens)")]
  return ⟨p.name, (root.join (Pathname.read p.buildPath)).join (Pathname.read spec.destination),
    content⟩

/-- The time stamp of a build: the one that is given, or else the present moment. -/
def stampOf (timestamp : Option String) (now : Moment) : String :=
  match timestamp with
  | some s => if s = "" then now.stamp else s
  | none => now.stamp

/-- The files of a platform. -/
def renderPlatform (w : Workspace) (plan : BuildPlan) (p : Platform) (root : Pathname)
    (timestamp : Option String) (now : Moment) : Reported PlatformError (List BuiltFile) :=
  Reported.mapError (⟨p.name, ·⟩) do
    let c ← w.platformTokens plan p root
    p.files.mapM (renderFile plan p root (stampOf timestamp now) now c)

/-! ### All platforms -/

/-- The platforms that are selected; an empty selection is one of all. -/
def selectPlatforms (plan : BuildPlan) (only : List String) : List Platform :=
  if only = [] then plan.platforms
  else plan.platforms.filter fun p => only.contains p.name

/-- The selected names that no platform has, sorted and each once. -/
def unknownPlatforms (plan : BuildPlan) (only : List String) : List String :=
  ((only.filter fun name => (plan.platform? name).isNone).eraseDups).mergeSort
    fun a b => !decide (b < a)

/-- The files of the selected platforms, in the order of the plan. The first failure ends the
run. -/
def renderAll (w : Workspace) (plan : BuildPlan) (root : Pathname) (only : List String)
    (timestamp : Option String) (now : Moment) : Reported BuildFailure (List BuiltFile) := do
  if unknownPlatforms plan only ≠ [] then
    Reported.ofExcept (.error (.plan (.unknownPlatforms (unknownPlatforms plan only))))
  else
    let files ← (selectPlatforms plan only).mapM fun p => do
      Reported.tell [.record .info buildChannel ("Building platform " ++ p.name)]
      Reported.mapError .platform (w.renderPlatform plan p root timestamp now)
    return files.flatten

/-! ### Files on the tree -/

/-- Writes a file after the directories around it. The tree is the one that is left also if that
fails. -/
def writeFile (w : Workspace) (f : BuiltFile) : Workspace × Except SystemError Unit :=
  let (tree, r) := w.tree.install w.cwd f.path (Utf8.encode f.content)
  ({ w with tree }, r)

/-- Writes files in order up to the first failure. -/
def writeAll (w : Workspace) : List BuiltFile → Workspace × Reported SystemError Unit
  | [] => (w, .tell [])
  | f :: rest =>
    match w.writeFile f with
    | (w, .error e) => (w, .ofExcept (.error e))
    | (w, .ok ()) =>
      let (w, r) := writeAll w rest
      (w, do
        Reported.tell [.record .debug buildChannel ("Wrote " ++ f.path.text)]
        r)

/-- Renders the selected platforms and writes their files; nothing is written if one fails to
render. -/
def buildAll (w : Workspace) (plan : BuildPlan) (root : Pathname) (only : List String)
    (timestamp : Option String) (now : Moment) :
    Workspace × Reported BuildFailure (List BuiltFile) :=
  let rendered := w.renderAll plan root only timestamp now
  match rendered.outcome with
  | .error _ => (w, rendered)
  | .ok files =>
    let (w, written) := w.writeAll files
    (w, do
      let files ← rendered
      written.mapError .write
      return files)

end Workspace

end StyleTokens
