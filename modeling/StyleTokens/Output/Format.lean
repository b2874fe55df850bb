import StyleTokens.Output.Source
import StyleTokens.Output.StyleSheet
import StyleTokens.Output.Markup

/-!
The formats of written files.

* `OutputFormat`: the formats;
* `OutputFormat.title`, `OutputFormat.ofTitle?`: the titles of formats in a configuration;
* `OutputFormat.content`: the file of a list of tokens in a format;
* `TokenList.content`: the same for the title of a format.
-/

namespace StyleTokens

/-- A format of files. -/
inductive OutputFormat where
  | css
  | scss
  | javaScript
  | typeScript
  | brightScript
  | swift
  | xaml
  | androidColors
  | androidResources
  deriving DecidableEq, Repr

namespace OutputFormat

/-- All formats. -/
def all : List OutputFormat :=
  [.css, .scss, .javaScript, .typeScript, .brightScript, .swift, .xaml, .androidColors,
    .androidResources]

/-- The title of a format in a configuration. -/
def title : OutputFormat → String
  | .css => "css/variables"
  | .scss => "scss/variables"
  | .javaScript => "javascript/es6"
  | .typeScript => "typescript/nested"
  | .brightScript => "brightscript/tokens"
  | .swift => "swift/tokens"
  | .xaml => "xaml/resourceDictionary"
  | .androidColors => "android/colors"
  | .androidResources => "android/resources"

/-- The format with a title. -/
def ofTitle? (s : String) : Option OutputFormat := all.find? fun f => f.title == s

/-- The file of a list of tokens. -/
def content (f : OutputFormat) (c : TokenList) (options : Fields) (now : Moment) :
    Except OutputError String :=
  match f with
  | .css => .ok (Output.css c options now)
  | .scss => .ok (Output.scss c options now)
  | .javaScript => Output.javaScript c options now
  | .typeScript => Output.typeScript c options now
  | .brightScript => .ok (Output.brightScript c options now)
  | .swift => Output.swift c options now
  | .xaml => .ok (Output.xaml c options now)
  | .androidColors => Output.android (.str "color") c options now
  | .androidResources => Output.android (options.getD "resource_type") c options now

end OutputFormat

/-- The file of a list of tokens in the format with a title. -/
def TokenList.content (c : TokenList) (title : String) (options : Fields) (now : Moment) :
    Except OutputError String :=
  match OutputFormat.ofTitle? title with
  | some f => f.content c options now
  | none => .error (.unknownFormat title)

end StyleTokens
