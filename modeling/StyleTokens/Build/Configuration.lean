import StyleTokens.Environment
import StyleTokens.Project.Workspace
import StyleTokens.Report

/-!
Configuration files.

A configuration file is looked for in a data directory: one that is given, or the one that the
environment names, or the nearest directory with the name `data` at or above a place. It must lie in
that directory. An object in it can be passed through a validation, which has errors of its own.

* `Validations`: what the validations do that a request can ask for;
* `ConfigRequest`: which file to load and how;
* `ConfigError`: why it cannot be loaded;
* `ConfigCache`: what was loaded before, by location, time, mode and validation;
* `Workspace.dataDirectory`, `Workspace.configLocation`, `Workspace.configPath`: where the file is;
* `Workspace.loadConfig`: what is in the file, and the cache afterwards.
-/

namespace StyleTokens

variable {ν ε α : Type}

/-- What is done with the value in a file. -/
inductive LoadMode where
  | raw
  | object
  deriving DecidableEq, Repr

/-- The name of a mode. -/
def LoadMode.name : LoadMode → String
  | .raw => "raw"
  | .object => "validated_dict"

/-- The mode with a name. -/
def LoadMode.ofName? (name : String) : Option LoadMode :=
  [LoadMode.raw, LoadMode.object].find? fun m => m.name == name

/-- What validations do with the fields of an object. Those that do nothing at all are no
validations. -/
abbrev Validations (ν ε α : Type) := ν → Option (Fields → Except ε α)

/-- Which file to load and how. -/
structure ConfigRequest (ν : Type) where
  file : String
  mode : String := LoadMode.raw.name
  baseDirectory : Option String := none
  validate : ν
  deriving DecidableEq, Repr

/-- Why a configuration file cannot be loaded. An error of the system is one of names that no file
can have. -/
inductive ConfigError (ε : Type) where
  | system (cause : SystemError)
  | unknownMode (name : String)
  | validatorWithoutMode
  | noDataDirectory (tried : List Location)
  | outside (location base : Location)
  | missing (location : Location)
  | malformed (location : Location) (cause : Json.SyntaxError)
  | longNumber (digits : Nat)
  | unreadable (location : Location) (cause : ReadError)
  | notObject (name : String) (kind : Json.Kind)
  | invalid (cause : ε)

/-- The words for an error, from those for the errors of a validation. -/
def ConfigError.describe (words : ε → String) : ConfigError ε → String
  | .system cause => cause.message
  | .unknownMode name => "Unknown mode '" ++ name ++ "'"
  | .validatorWithoutMode => "A validator requires mode 'validated_dict'"
  | .noDataDirectory tried =>
    "No 'data' directory found.\nTried:\n  " ++ "\n  ".intercalate (tried.map Location.text)
  | .outside location base =>
    "Refusing to access file outside data dir: " ++ location.text ++ " (base=" ++ base.text ++ ")"
  | .missing location => "Config file not found: " ++ location.text
  | .malformed location cause => "Invalid JSON in " ++ location.text ++ ": " ++ cause.message
  | .longNumber digits => Json.longNumberMessage (some digits)
  | .unreadable location cause => "Cannot read " ++ location.text ++ ": " ++ cause.message
  | .notObject name kind => name ++ ": expected a JSON object, got " ++ kind.name
  | .invalid cause => words cause

/-- What a configuration file gives: the value in it, or what a validation makes of it. -/
inductive ConfigValue (α : Type) where
  | document (value : Json)
  | valid (value : α)

/-- By what a cached result is found. -/
structure ConfigKey (ν : Type) where
  location : Location
  stamp : Stamp
  mode : LoadMode
  validate : ν
  deriving DecidableEq, Repr

/-- What was loaded before. -/
abbrev ConfigCache (ν α : Type) := List (ConfigKey ν × ConfigValue α)

/-- The channel of the records on configuration files. -/
def loadChannel : String := "design_token_compiler.pipeline.general.utils.load_config"

namespace Workspace

/-! ### Where the file is -/

/-- The variables that can name the data directory, the first one first. -/
def dataVariables : List String := ["DATA_DIR", "DTC_DATA_DIR"]

/-- The directories with the name `data` at a location and above it, the nearest first. -/
def dataCandidates : Location → List Location
  | [] => [["data"]]
  | name :: names => (dataCandidates names).map (name :: ·) ++ [["data"]]

/-- The data directory that is given, or else the one that the environment names. -/
def namedDirectory? (env : Environment) (base : Option String) : Option Pathname :=
  match base with
  | some s => some (Pathname.read s)
  | none =>
    (dataVariables.find? fun v => env.value v ≠ "").map fun v =>
      Pathname.read (env.expandHome (env.value v))

/-- The nearest directory with the name `data` at or above a place. -/
def nearestDirectory (w : Workspace) (place : Pathname) : Except (ConfigError ε) Location := do
  let candidates := dataCandidates (← (place.locate w.cwd).mapError .system)
  match ← (candidates.findM? fun l => w.tree.isDirectory [] l.pathname).mapError .system with
  | some l => return l
  | none => throw (.noDataDirectory candidates)

/-- The data directory: the one that is given, the one that the environment names, or the nearest one
at or above a place. -/
def dataDirectory (w : Workspace) (env : Environment) (place : Pathname)
    (base : Option String) : Except (ConfigError ε) Location :=
  match namedDirectory? env base with
  | some p => (p.locate w.cwd).mapError .system
  | none => w.nearestDirectory place

/-- The name of a configuration file, with its ending. -/
def configName (file : String) : String :=
  if ".json".toList.isSuffixOf file.toList then file else file ++ ".json"

/-- The location of a configuration file in a data directory, with its time. -/
def configLocation (w : Workspace) (base : Location) (file : String) :
    Except (ConfigError ε) (Location × Stamp) := do
  let location ← ((Pathname.read (configName file)).locate base).mapError .system
  if base.contains location then
    match ← (w.tree.entryAt? [] location.pathname).mapError .system with
    | some (.file _ stamp) => return (location, stamp)
    | _ => throw (.missing location)
  else throw (.outside location base)

/-- The location of a configuration file in the data directory, with its time. -/
def configPath (w : Workspace) (env : Environment) (place : Pathname) (base : Option String)
    (file : String) : Except (ConfigError ε) (Location × Stamp) := do
  w.configLocation (← w.dataDirectory env place base) file

/-! ### What is in it -/

/-- The value in a configuration file. -/
def readConfig (w : Workspace) (location : Location) : Except (ConfigError ε) Json :=
  (w.readDocument location.pathname).mapError fun
    | .read cause => .unreadable location cause
    | .text (.malformed cause) => .malformed location cause
    | .text (.longNumber digits) => .longNumber digits

/-- What a value gives in a mode. -/
def interpret (location : Location) (mode : LoadMode)
    (validation : Option (Fields → Except ε α)) (v : Json) :
    Except (ConfigError ε) (ConfigValue α) :=
  match mode with
  | .raw => .ok (.document v)
  | .object =>
    match v with
    | .obj fields =>
      match validation with
      | some validation => ((validation fields).mapError .invalid).map .valid
      | none => .ok (.document v)
    | _ => .error (.notObject (location.getLast?.getD "") v.kind)

variable (validations : Validations ν ε α)

/-- The mode of a request, if it is known and suits the validation. -/
def modeOf (r : ConfigRequest ν) : Except (ConfigError ε) LoadMode :=
  match LoadMode.ofName? r.mode with
  | none => .error (.unknownMode r.mode)
  | some mode =>
    if (validations r.validate).isSome ∧ mode ≠ .object then .error .validatorWithoutMode
    else .ok mode

/-- By what the result of a request is found in a cache. -/
def keyOf (w : Workspace) (env : Environment) (place : Pathname) (r : ConfigRequest ν) :
    Except (ConfigError ε) (ConfigKey ν) := do
  let mode ← modeOf validations r
  let (location, stamp) ← w.configPath env place r.baseDirectory r.file
  return ⟨location, stamp, mode, r.validate⟩

/-- The record on a use of the cache. -/
def cacheEvent (what : String) (key : ConfigKey ν) : Event :=
  .record .debug loadChannel
    ("Config cache " ++ what ++ ": " ++ key.location.getLast?.getD "" ++ " (mode=" ++ key.mode.name ++
      ")")

/-- What a file gives for a key, without a cache. -/
def loadKey (w : Workspace) (key : ConfigKey ν) : Except (ConfigError ε) (ConfigValue α) := do
  interpret key.location key.mode (validations key.validate) (← w.readConfig key.location)

/-- What a configuration file gives, and the cache afterwards. Nothing is kept of a failure. -/
def loadConfig [DecidableEq ν] (w : Workspace) (env : Environment) (place : Pathname)
    (r : ConfigRequest ν) (cache : ConfigCache ν α) :
    ConfigCache ν α × Reported (ConfigError ε) (ConfigValue α) :=
  match w.keyOf validations env place r with
  | .error e => (cache, .ofExcept (.error e))
  | .ok key =>
    match cache.lookup key with
    | some result => (cache, ⟨[cacheEvent "HIT" key], .ok result⟩)
    | none =>
      match w.loadKey validations key with
      | .ok result => ((key, result) :: cache, ⟨[cacheEvent "MISS → STORED" key], .ok result⟩)
      | .error e => (cache, .ofExcept (.error e))

end Workspace

end StyleTokens
