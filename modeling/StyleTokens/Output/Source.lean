import StyleTokens.Output.Header
import StyleTokens.Output.NameTree
import StyleTokens.Token.Words

/-!
Files for programs.

* `Output.javaScript`: a constant for every token;
* `Output.typeScript`: a constant for every token, and an object that holds them by path;
* `Output.brightScript`: a function that returns an associative array;
* `Output.swift`: an enumeration for every category, with a constant for every token.
-/

namespace StyleTokens.Output

/-! ### Constants -/

/-- The line of a token, unless its value holds a whole number of too many digits. -/
def javaScriptLine (t : Token) : Except OutputError String :=
  if t.value.holdsLongNumber then .error .longNumber
  else .ok ("export const " ++ t.name ++ " = " ++ t.value.javaScript ++ ";")

/-- Exported constants. -/
def javaScript (c : TokenList) (options : Fields) (now : Moment) : Except OutputError String := do
  let lines ← c.tokens.mapM javaScriptLine
  return joinLines ([header .block "JavaScript" options now, ""] ++ lines) ++ "\n"

/-! ### Constants and a nested object -/

/-- The line of a token. -/
def typeScriptLine (t : Token) : String :=
  "export const " ++ t.name ++ " = " ++ t.value.typeScript ++ ";"

/-- A constant for every token, and an object whose leaves name the constants. -/
def typeScript (c : TokenList) (options : Fields) (now : Moment) :
    Except OutputError String := do
  let tree ← NameTree.ofTokens c.tokens
  return header .block "TypeScript" options now ++ "\n\n" ++
    joinLines (c.tokens.map typeScriptLine) ++ "\n\nexport const tokens = " ++ tree.format 0 ++
    " as const;\n"

/-! ### An associative array -/

/-- The line of a token. -/
def brightScriptLine (t : Token) : String := "        " ++ t.name ++ ": " ++ t.value.brightScript

/-- A function that returns an associative array. -/
def brightScript (c : TokenList) (options : Fields) (now : Moment) : String :=
  header .apostrophe "BrightScript" options now ++ "\n\nfunction " ++
    optionText options "namespace" usualNamespace ++ "() as object\n    return \x7b\n" ++
    joinLines (c.tokens.map brightScriptLine) ++ "\n    \x7d\nend function\n"

/-! ### Enumerations -/

/-- A character of an identifier. -/
def identifierChar (c : Char) : Char := if Words.isWordChar c || c == '_' then c else '_'

/-- The identifier of a token: the keys after the category, or all if there are no others, with an
underscore for every character that identifiers cannot hold and before a digit at the front. -/
def swiftName (t : Token) : String :=
  let rest := if t.path.drop 1 = [] then t.path else t.path.drop 1
  let cs := ("_".intercalate rest).toList.map identifierChar
  String.ofList (if cs.head?.any Words.isDigit then '_' :: cs else cs)

/-- A colour as an expression. -/
def swiftExpression (c : Color) : String :=
  "SwiftUI.Color(hex: 0x" ++ c.rgbHex ++
    (if c.isSolid then "" else ", alpha: " ++ c.alphaFixed) ++ ")"

/-- The declaration of a token. -/
def swiftDeclaration (t : Token) : Except OutputError String := do
  let start := "public static let " ++ swiftName t
  if t.tag.isText "color" then
    return start ++ " = " ++ swiftExpression (← (Color.read t.value).mapError .color)
  else if t.value.isNumber then
    return start ++ ": CGFloat = " ++ t.value.bareText
  else
    return start ++ " = " ++ inDoubleMarks t.value.bareText

/-- Groups after one token more: it goes to the end of the group of its category, or makes a new
group at the end. -/
def addToGroup (t : Token) : List (String × List Token) → List (String × List Token)
  | [] => [(t.category, [t])]
  | (category, members) :: groups =>
    if category = t.category then (category, members ++ [t]) :: groups
    else (category, members) :: addToGroup t groups

/-- The tokens by category, each added to the groups of those before it. -/
def byCategory (tokens : List Token) : List (String × List Token) :=
  tokens.foldl (fun groups t => addToGroup t groups) []

/-- The enumeration of a category. -/
def swiftEnum (category : String) (members : List Token) : Except OutputError (List String) := do
  let name := pascalName [category]
  let lines ← members.mapM swiftDeclaration
  return ("    public enum " ++ (if name = "" then "Misc" else name) ++ " \x7b") ::
    lines.map ("        " ++ ·) ++ ["    \x7d"]

/-- What makes colours from numbers. -/
def swiftExtension : String :=
  joinLines ["// MARK: - Color Extension",
    "extension Color \x7b",
    "    init(hex: UInt, alpha: Double = 1) \x7b",
    "        self.init(",
    "            .sRGB,",
    "            red: Double((hex >> 16) & 0xff) / 255,",
    "            green: Double((hex >> 08) & 0xff) / 255,",
    "            blue: Double((hex >> 00) & 0xff) / 255,",
    "            opacity: alpha",
    "        )",
    "    \x7d",
    "\x7d", ""]

/-- An enumeration for every category, with a constant for every token. -/
def swift (c : TokenList) (options : Fields) (now : Moment) : Except OutputError String := do
  let enums ← (byCategory c.tokens).mapM fun (category, members) => swiftEnum category members
  return joinLines ([header .line "Swift" options now, "", "import SwiftUI", "",
      "public enum " ++ optionText options "namespace" usualNamespace ++ " \x7b"] ++
    enums.flatten ++ ["\x7d"]) ++ "\n\n" ++ swiftExtension

end StyleTokens.Output
