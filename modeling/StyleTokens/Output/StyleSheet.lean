import StyleTokens.Output.Header
import StyleTokens.Output.Literal
import StyleTokens.Token.Basic
import StyleTokens.Token.Reference

/-!
Style sheets.

* `Output.css`: custom properties under a selector, where a token that is one reference to another
  token of the file can be written as an alias of it;
* `Output.scss`: variables.
-/

namespace StyleTokens.Output

/-- The token of a list that the declared value of a token is one reference to. -/
def aliased? (c : TokenList) (t : Token) : Option Token :=
  match t.declared with
  | .str s =>
    match Reference.whole? s.toList with
    | some name => c.get? (Text.ofDotted (Text.stripped (String.ofList name)))
    | none => none
  | _ => none

/-- The value of a property: an alias of another token if aliases are wanted and there is one. -/
def cssValue (aliases : Bool) (c : TokenList) (t : Token) : String :=
  match if aliases then aliased? c t else none with
  | some target => "var(--" ++ target.name ++ ")"
  | none => t.value.bareText

/-- The line of a token. -/
def cssLine (aliases : Bool) (c : TokenList) (t : Token) : String :=
  "  --" ++ t.name ++ ": " ++ cssValue aliases c t ++ ";"

/-- The text of the selector. -/
def cssSelector (options : Fields) : String :=
  match options.get? "selector" with
  | some v => v.plain
  | none => ":root"

/-- Custom properties under a selector. -/
def css (c : TokenList) (options : Fields) (now : Moment) : String :=
  let aliases := (options.getD "output_references").isTruthy
  joinLines ([header .block "CSS" options now, "", cssSelector options ++ " \x7b"] ++
    c.tokens.map (cssLine aliases c) ++ ["\x7d"]) ++ "\n"

/-- The line of a token. -/
def scssLine (t : Token) : String := "$" ++ t.name ++ ": " ++ t.value.bareText ++ ";"

/-- Variables. -/
def scss (c : TokenList) (options : Fields) (now : Moment) : String :=
  joinLines ([header .line "SCSS" options now, ""] ++ c.tokens.map scssLine) ++ "\n"

end StyleTokens.Output
