import StyleTokens.Json.Shown
import StyleTokens.Moment

/-!
The header of written files.

* `CommentSyntax`: the comment syntax of a target language;
* `Output.generated`: the time stamp of the options, or else of the present moment;
* `Output.header`: title, warning and time stamp as comments.
-/

namespace StyleTokens

/-- The comment syntax of a target language. -/
inductive CommentSyntax where
  | block
  | line
  | hash
  | apostrophe
  | xml
  deriving DecidableEq, Repr

/-- The style with a name. -/
def CommentSyntax.ofName? (name : String) : Option CommentSyntax :=
  [("block", block), ("line", line), ("hash", hash), ("apostrophe", apostrophe),
    ("xml", xml)].lookup name

namespace Output

/-- The title of files that are given none. -/
def usualTitle : String := "Design Tokens"

/-- The namespace of files that are given none. -/
def usualNamespace : String := "DesignTokens"

/-- The text of an option that is given, and a default otherwise. -/
def optionText (options : Fields) (key default : String) : String :=
  let v := options.getD key
  if v.isTruthy then v.plain else default

/-- The time stamp of the options, if it is a string, or else of the present moment. -/
def generated (options : Fields) (now : Moment) : String :=
  match options.getD "timestamp" with
  | .str s => s
  | _ => now.stamp

/-- What the header says. -/
def headerLines (options : Fields) (label : String) (now : Moment) : List String :=
  [optionText options "title" usualTitle ++ " - " ++ label,
    "Auto-generated - DO NOT EDIT",
    "Generated: " ++ generated options now]

/-- Lines with line feeds between them. -/
def joinLines (lines : List String) : String := "\n".intercalate lines

/-- Lines as comments. -/
def CommentSyntax.comment (style : CommentSyntax) (lines : List String) : List String :=
  match style with
  | .block => "/**" :: lines.map (" * " ++ ·) ++ [" */"]
  | .xml => lines.map fun l => "<!-- " ++ l ++ " -->"
  | .line => lines.map ("// " ++ ·)
  | .hash => lines.map ("# " ++ ·)
  | .apostrophe => lines.map ("' " ++ ·)

/-- The header as comments, without a line feed at its end. -/
def header (style : CommentSyntax) (label : String) (options : Fields) (now : Moment) : String :=
  joinLines (CommentSyntax.comment style (headerLines options label now))

end Output

end StyleTokens
