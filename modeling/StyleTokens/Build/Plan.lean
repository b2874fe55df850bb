import StyleTokens.Json.Shown
import StyleTokens.Output.Format
import StyleTokens.Token.Transform

/-!
The plan of a build.

* `OutputSpec`, `Platform`, `BuildPlan`: what to write for which platform from which sources;
* `PlanError`: why a document is no plan;
* `BuildPlan.ofFields`: the plan in a document, with all names checked;
* `BuildPlan.platform?`, `BuildPlan.sourcesOf`: look-ups.
-/

namespace StyleTokens

/-- A file to write: where, in which format, and for which class of tokens. -/
structure OutputSpec where
  destination : String
  format : String
  filter : Option String := none
  options : Fields := []
  deriving Repr, Inhabited

/-- A platform: the transforms of its tokens and its files. A platform without sources of its own has
those of the plan. -/
structure Platform where
  name : String
  transforms : List String
  files : List OutputSpec
  buildPath : String := ""
  source : Option (List String) := none
  options : Fields := []
  deriving Repr, Inhabited

/-- What to write for which platform from which sources. -/
structure BuildPlan where
  source : List String
  platforms : List Platform
  options : Fields := []
  deriving Repr, Inhabited

/-- Why a document is no plan, or a build has no such platform. Errors name the place in the
document. -/
inductive PlanError where
  | noPlatforms
  | notStrings (location : String)
  | platformNotObject (location : String)
  | unknownTransforms (location : String) (names : List String)
  | noFiles (location : String)
  | fileNotObject (location : String)
  | noDestination (location : String)
  | unknownFormat (location : String) (value : Json)
  | unknownFilter (location : String) (value : Json)
  | optionsNotObject (location : String)
  | compositeName (kind : CompositeKey)
  | noSources (location : String)
  | unknownPlatforms (names : List String)

/-- The words for an error. -/
def PlanError.message : PlanError → String
  | .noPlatforms => "'platforms' must be a non-empty object"
  | .notStrings l => l ++ ": expected a list of strings"
  | .platformNotObject l => l ++ ": platform entry must be an object"
  | .unknownTransforms l names => l ++ ": unknown transform(s) " ++ ", ".intercalate names
  | .noFiles l => l ++ ": 'files' must be a non-empty list"
  | .fileNotObject l => l ++ ": file entry must be an object"
  | .noDestination l => l ++ ": missing 'destination'"
  | .unknownFormat l v => l ++ ": unknown format " ++ v.shown
  | .unknownFilter l v => l ++ ": unknown filter " ++ v.shown
  | .optionsNotObject l => l ++ ": 'options' must be an object"
  | .compositeName kind => kind.message
  | .noSources l => l ++ ": no token sources"
  | .unknownPlatforms names => "Unknown platform(s): " ++ ", ".intercalate names

namespace BuildPlan

/-! ### Reading -/

/-- The strings of a list. -/
def stringsOf (location : String) (v : Json) : Except PlanError (List String) :=
  match v with
  | .arr items =>
    match items.mapM Json.str? with
    | some names => .ok names
    | none => .error (.notStrings location)
  | _ => .error (.notStrings location)

/-- The entries of an object of options; null has none. -/
def optionsOf (location : String) (v : Json) : Except PlanError Fields :=
  match v with
  | .null => .ok []
  | .obj fields => .ok fields
  | _ => .error (.optionsNotObject location)

/-- The name that a value is, if it is one of a list. -/
def nameAmong (names : List String) (unknown : Json → PlanError) (v : Json) :
    Except PlanError String := do
  let known ← (v.isOneOf names).mapError .compositeName
  if known then return v.plain else throw (unknown v)

/-- The file of an entry. -/
def fileOf (location : String) (v : Json) : Except PlanError OutputSpec := do
  match v with
  | .obj raw =>
    let destination := ((Fields.getD raw "destination").str?).getD ""
    if destination = "" then throw (.noDestination location)
    let format ← nameAmong (OutputFormat.all.map OutputFormat.title) (.unknownFormat location)
      (Fields.getD raw "format")
    let filterValue := Fields.getD raw "filter"
    let filter ← if filterValue.isNull then pure none else
      (nameAmong (TokenFilter.named.map (·.1)) (.unknownFilter location) filterValue).map some
    let options ← optionsOf location (Fields.getD raw "options")
    return { destination, format, filter, options }
  | _ => throw (.fileNotObject location)

/-- The files of a list, each at its place in it. -/
def filesOf (location : String) (items : List Json) : Except PlanError (List OutputSpec) :=
  items.zipIdx.mapM fun (v, i) =>
    fileOf (location ++ ".files[" ++ toString i ++ "]") v

/-- The place of a platform in the document. -/
def platformLocation (name : String) : String := "platforms." ++ name

/-- The platform of an entry. -/
def platformOf (name : String) (v : Json) : Except PlanError Platform := do
  let location := platformLocation name
  match v with
  | .obj raw =>
    let transforms ← stringsOf (location ++ ".transforms")
      ((Fields.get? raw "transforms").getD (.arr []))
    let unknown := transforms.filter fun t => (Transform.ofTitle? t).isNone
    if unknown ≠ [] then throw (.unknownTransforms location unknown)
    match Fields.getD raw "files" with
    | .arr (first :: rest) =>
      let files ← filesOf location (first :: rest)
      let sourceValue := Fields.getD raw "source"
      let source ← if sourceValue.isNull then pure none else
        (stringsOf (location ++ ".source") sourceValue).map some
      let options ← optionsOf location (Fields.getD raw "options")
      return { name, transforms, files, source, options,
               buildPath := ((Fields.get? raw "build_path").map Json.plain).getD "" }
    | _ => throw (.noFiles location)
  | _ => throw (.platformNotObject location)

/-- The sources of a platform: its own, or those of the plan. -/
def sourcesOf (c : BuildPlan) (p : Platform) : List String := p.source.getD c.source

/-- The options of all platforms: title and namespace, and over them the options of the document. -/
def baseOptions (raw options : Fields) : Fields :=
  Fields.merge
    [("title", (raw.get? "title").getD (.str Output.usualTitle)),
      ("namespace", (raw.get? "namespace").getD (.str Output.usualNamespace))] options

/-- The plan in a document. -/
def ofFields (raw : Fields) : Except PlanError BuildPlan := do
  match raw.getD "platforms" with
  | .obj (first :: rest) =>
    let source ← stringsOf "source" ((raw.get? "source").getD (.arr []))
    let platforms ← (first :: rest).mapM fun (name, v) => platformOf name v
    match platforms.find? fun p => p.source.getD source == [] with
    | some p => throw (.noSources (platformLocation p.name))
    | none =>
      let options ← optionsOf "config" (raw.getD "options")
      return { source, platforms, options := baseOptions raw options }
  | _ => throw .noPlatforms

/-! ### Look-ups -/

/-- The first platform with a name. -/
def platform? (c : BuildPlan) (name : String) : Option Platform :=
  c.platforms.find? fun p => p.name == name

/-- The words for a platform that is looked up in vain. -/
def unknownPlatformMessage (name : String) : String :=
  Text.quoted ("Unknown platform '" ++ name ++ "'")

end BuildPlan

end StyleTokens
