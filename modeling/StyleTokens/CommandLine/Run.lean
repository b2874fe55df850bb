import StyleTokens.Build.Loader
import StyleTokens.Build.Run
import StyleTokens.CommandLine.Invocation
import StyleTokens.Project.Check
import StyleTokens.Trace

/-!
Running commands.

* `Session`: files, environment, the place from which the data directory is looked for, and the cache
  of configurations;
* `CommandFailure`, `CommandFailure.isReported`: what ends a command, and whether that is an expected
  failure with a message or one that the program does not deal with;
* `CommandRun`: what a command prints and reports, and what it leaves behind;
* `Session.run`: a command in a session.
-/

namespace StyleTokens

/-- What commands work on. -/
structure Session where
  workspace : Workspace
  environment : Environment := []
  place : Pathname
  cache : LoadCache := []

/-- The variable that names the topics to trace. -/
def topicsVariable : String := "DTC_DEBUG_TOPICS"

/-- The topics that the environment asks to trace. -/
def Environment.topics (env : Environment) : Topics := Topics.read (env.value topicsVariable)

/-- The topics that are traced in a session. -/
def Session.topics (s : Session) : Topics := s.environment.topics

/-- What ends a command. Options that are given nothing are no path names and no names of
platforms. -/
inductive CommandFailure where
  | load (cause : LoadError)
  | source (cause : SourceError)
  | build (cause : BuildFailure)
  | validation (cause : ValidationFailure)
  | noPathname
  | noPlatformName

/-- The words for a failure. -/
def CommandFailure.message : CommandFailure → String
  | .load cause => cause.message
  | .source cause => cause.message
  | .build cause => cause.message
  | .validation cause => cause.message
  | .noPathname => "expected str, bytes or os.PathLike object, not list"
  | .noPlatformName => CompositeKey.list.message

/-- Is the failure one with a message for people? Others are not dealt with. -/
def CommandFailure.isReported : CommandFailure → Bool
  | .load cause => cause.isReported
  | .source cause => cause.isReported
  | .build (.write _) => false
  | .build _ => true
  | .validation _ => false
  | .noPathname => false
  | .noPlatformName => false

/-- What a command prints and reports, how it ends, and what it leaves behind. -/
structure CommandRun where
  session : Session
  printed : String
  events : List Event
  outcome : Except CommandFailure Nat

namespace Session

/-- Lines with a line feed after each. -/
def printLines (lines : List String) : String := String.join (lines.map (· ++ "\n"))

/-! ### Building -/

/-- The path name that an option is given. -/
def pathnameOf : OptionValue → Except CommandFailure Pathname
  | .text s => .ok (Pathname.read s)
  | .nothing => .error .noPathname

/-- The name of a platform that an option is given. -/
def platformOf : OptionValue → Except CommandFailure String
  | .text s => .ok s
  | .nothing => .error .noPlatformName

/-- Builds the selected platforms of a plan. -/
def buildPlan (s : Session) (now : Moment) (plan : BuildPlan) (root : OptionValue)
    (platforms : List OptionValue) : Workspace × Reported CommandFailure (List BuiltFile) :=
  let stop (e : CommandFailure) := (s.workspace, Reported.ofExcept (.error e))
  match platforms.mapM platformOf with
  | .error e => stop e
  | .ok only =>
    match pathnameOf root with
    | .ok root =>
      let (workspace, built) := s.workspace.buildAll plan root only none now
      (workspace, built.mapError .build)
    | .error e =>
      match Workspace.unknownPlatforms plan only with
      | [] => stop e
      | names => stop (.build (.plan (.unknownPlatforms names)))

/-- Builds the platforms of the plan in a file. -/
def runBuild (s : Session) (now : Moment) (config : Option OptionValue) (root : OptionValue)
    (platforms : List OptionValue) : CommandRun :=
  match config.mapM pathnameOf with
  | .error e => ⟨s, "", [], .error e⟩
  | .ok config =>
    let (cache, loaded) := s.workspace.loadPlan s.environment s.place config s.cache
    let s := { s with cache }
    match loaded.outcome with
    | .error e => ⟨s, "", loaded.events, .error (.load e)⟩
    | .ok c =>
      let start := printLines
        ["🎨 " ++ (c.options.getD "title").plain ++ " - Building for all platforms...", ""]
      let (workspace, built) := s.buildPlan now c root platforms
      let s := { s with workspace }
      let events := loaded.events ++ built.events
      match built.outcome with
      | .error e => ⟨s, start, events, .error e⟩
      | .ok files =>
        ⟨s, start ++ printLines ("✅ Build complete! Generated outputs:" ::
          files.map fun f => "   • " ++ f.path.text), events, .ok 0⟩

/-! ### Checking -/

/-- What is printed when there is no baseline. -/
def noBaselineLines (baseline tokens : String) : List String :=
  ["⚠️  No baseline directory found at \"" ++ baseline ++ "\"",
    "   Run with a baseline to detect breaking changes.", "",
    "   To create a baseline, copy your current tokens:",
    "   cp -r " ++ tokens ++ " " ++ baseline, ""]

/-- The changes from a baseline to the tokens of an option; none if there is no baseline. -/
def changesFrom (s : Session) (baseline : String) :
    OptionValue → Reported CommandFailure (Option ChangeReport)
  | .text tokens => (s.workspace.compareDirectories baseline tokens).mapError .source
  | .nothing => do
    match ← (s.workspace.loadBaseline baseline).mapError .source with
    | none => return none
    | some _ => .ofExcept (.error .noPathname)

/-- Compares tokens with a baseline. -/
def runCheckBreaking (s : Session) (baseline : String) (tokens : OptionValue) : CommandRun :=
  let start := printLines ["🔍 Checking for breaking changes...", ""]
  let checked := s.changesFrom baseline tokens
  match checked.outcome with
  | .error e => ⟨s, start, checked.events, .error e⟩
  | .ok none =>
    ⟨s, start ++ printLines (noBaselineLines baseline tokens.shown), checked.events, .ok 0⟩
  | .ok (some report) =>
    ⟨s, start ++ printLines (report.lines ++ [""]), checked.events, .ok report.exitCode⟩

/-- A list of findings under a heading with their number. -/
def findingLines (mark what : String) (findings : List String) : List String :=
  if findings = [] then []
  else [mark ++ toString findings.length ++ what, ""] ++ findings.map ("   " ++ ·) ++ [""]

/-- What is printed on a validation. -/
def validationLines (v : Validation) (tokens success : String) : List String :=
  if v.files = [] then ["⚠️  No token files found in " ++ tokens ++ "/ directory"]
  else
    ["Found " ++ toString v.files.length ++ " token file(s):", ""] ++
      v.files.map ("  📄 " ++ ·) ++ [""] ++
      findingLines "⚠️  " " warning(s):" v.findings.warnings ++
      (if v.isOk then ["✅ " ++ success, ""]
      else findingLines "❌ " " error(s):" v.findings.errors)

/-- The run of a validation that prints a heading, and its findings on a directory. -/
def validationRun (s : Session) (heading : String) (tokens : OptionValue)
    (check : String → Except ValidationFailure Validation)
    (lines : String → Validation → List String) : CommandRun :=
  let start := [heading, ""]
  match tokens with
  | .nothing => ⟨s, printLines start, [], .error .noPathname⟩
  | .text directory =>
    match check directory with
    | .error e => ⟨s, printLines start, [], .error (.validation e)⟩
    | .ok v => ⟨s, printLines (start ++ lines directory v), [], .ok v.exitCode⟩

/-- Checks the keys of token files. -/
def runValidateNaming (s : Session) (tokens : OptionValue) : CommandRun :=
  s.validationRun "🔍 Validating token naming conventions..." tokens s.workspace.checkKeys
    fun directory v =>
      validationLines v directory "All token names follow conventions!" ++
        if v.files = [] ∨ v.isOk then []
        else "Naming conventions:" :: conventionLines.map ("  • " ++ ·) ++ [""]

/-- Checks the tokens of token files. -/
def runValidateFormat (s : Session) (tokens : OptionValue) : CommandRun :=
  s.validationRun "🔍 Validating token format..." tokens s.workspace.checkTokens
    fun directory v => validationLines v directory "All tokens are valid!"

/-! ### Commands -/

/-- A command in a session. -/
def run (s : Session) (now : Moment) : Command → CommandRun
  | .build config root platforms => s.runBuild now config root platforms
  | .compareDirectories baseline tokens => s.runCheckBreaking baseline tokens
  | .checkKeys tokens => s.runValidateNaming tokens
  | .checkTokens tokens => s.runValidateFormat tokens

end Session

namespace CommandRun

/-- The text of what is reported on the way. -/
def reportText (r : CommandRun) (now : Moment) (debug : Bool) : String :=
  labelledReport r.session.topics now (if debug then .debug else .warning) r.events

/-- The line for a failure. -/
def failureLine (e : CommandFailure) : String := "❌ Error: " ++ e.message ++ "\n"

/-- The exit code and the text of the error stream; none for a failure that is not dealt with. -/
def finish? (r : CommandRun) (now : Moment) (debug : Bool) : Option (Nat × String) :=
  match r.outcome with
  | .ok code => some (code, r.reportText now debug)
  | .error e =>
    if e.isReported then some (1, r.reportText now debug ++ failureLine e) else none

end CommandRun

end StyleTokens
