import StyleTokens.Output.Header
import StyleTokens.Output.Error
import StyleTokens.Output.Literal

/-!
Files of markup.

* `Output.xmlText`, `Output.xmlAttribute`: text between tags and values of attributes;
* `Output.xaml`: a resource dictionary;
* `Output.android`: resources, each under a tag for its kind.
-/

namespace StyleTokens.Output

/-- A character between tags. -/
def xmlChar (c : Char) : List Char :=
  if c = '&' then "&amp;".toList
  else if c = '>' then "&gt;".toList
  else if c = '<' then "&lt;".toList
  else [c]

/-- A text between tags. -/
def xmlText (s : String) : String := String.ofList (escapeWith xmlChar s)

/-- A character of an attribute, between marks that it is not. -/
def xmlAttributeChar (c : Char) : List Char :=
  if c = '\n' then "&#10;".toList
  else if c = '\r' then "&#13;".toList
  else if c = '\t' then "&#9;".toList
  else xmlChar c

/-- A character of an attribute between double marks that may be one. -/
def xmlMarkedChar (c : Char) : List Char :=
  if c = '"' then "&quot;".toList else xmlAttributeChar c

/-- The value of an attribute with its marks: double ones, or single ones around a value that holds
double ones alone. -/
def xmlAttribute (s : String) : String :=
  let cs := s.toList
  if '"' ∉ cs then String.ofList ('"' :: escapeWith xmlAttributeChar s ++ ['"'])
  else if '\'' ∉ cs then String.ofList ('\'' :: escapeWith xmlAttributeChar s ++ ['\''])
  else String.ofList ('"' :: escapeWith xmlMarkedChar s ++ ['"'])

/-! ### A resource dictionary -/

/-- The tag of a token. -/
def xamlTag (t : Token) : String :=
  if t.tag.isText "color" then "Color"
  else if t.value.isNumber then "sys:Double"
  else "sys:String"

/-- The entry of a token. -/
def xamlLine (t : Token) : String :=
  "    <" ++ xamlTag t ++ " x:Key=" ++ xmlAttribute t.name ++ ">" ++ xmlText t.value.bareText ++
    "</" ++ xamlTag t ++ ">"

/-- The opening tag of a dictionary. -/
def xamlOpening : List String :=
  ["<ResourceDictionary",
    "    xmlns=\"http://schemas.microsoft.com/winfx/2006/xaml/presentation\"",
    "    xmlns:x=\"http://schemas.microsoft.com/winfx/2006/xaml\"",
    "    xmlns:sys=\"clr-namespace:System;assembly=mscorlib\">"]

/-- A resource dictionary. -/
def xaml (c : TokenList) (options : Fields) (now : Moment) : String :=
  joinLines ([header .xml "XAML" options now] ++ xamlOpening ++ c.tokens.map xamlLine ++
    ["</ResourceDictionary>"]) ++ "\n"

/-! ### Resources -/

/-- The tag of a token: the kind of resource if one is given, or else by its type tag. -/
def androidTag (resourceType : Json) (t : Token) : Except OutputError String :=
  if resourceType.isTruthy then .ok resourceType.plain
  else if t.tag.isText "color" then .ok "color"
  else do
    let numeric ← (t.tag.isOneOf numericTags).mapError .compositeTag
    return if numeric then "dimen" else "string"

/-- The entry of a token. -/
def androidLine (resourceType : Json) (t : Token) : Except OutputError String := do
  let tag ← androidTag resourceType t
  return "  <" ++ tag ++ " name=" ++ xmlAttribute t.name ++ ">" ++ xmlText t.value.bareText ++
    "</" ++ tag ++ ">"

/-- Resources. -/
def android (resourceType : Json) (c : TokenList) (options : Fields) (now : Moment) :
    Except OutputError String := do
  let entries ← c.tokens.mapM (androidLine resourceType)
  return joinLines (["<?xml version=\"1.0\" encoding=\"UTF-8\"?>",
    header .xml "Android" options now, "<resources>"] ++ entries ++ ["</resources>"]) ++ "\n"

end StyleTokens.Output
