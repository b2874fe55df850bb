import StyleTokens.Json.Shown
import StyleTokens.Token.Filter
import StyleTokens.Token.Words

/-!
Transforms of tokens.

* `Transform`: a new name from the path, a colour as digits, or a size with a unit or as a number;
* `Transform.title`, `Transform.ofTitle?`: the titles of transforms in a configuration;
* `Transform.apply`: the transform of a token, which leaves tokens outside its class alone;
* `TokenList.transform`: a chain of transforms on every token.
-/

namespace StyleTokens

/-- The ways to join words to a name. -/
inductive NameStyle where
  | camel
  | kebab
  | snake
  | pascal
  deriving DecidableEq, Repr

/-- The name of a path in a style. -/
def NameStyle.join : NameStyle → List String → String
  | .camel => camelName
  | .kebab => kebabName
  | .snake => snakeName
  | .pascal => pascalName

/-- A transform of tokens. -/
inductive Transform where
  | name (style : NameStyle)
  | argb
  | rokuHex
  | px
  | dp
  | sp
  | number
  deriving DecidableEq, Repr

namespace Transform

/-- All transforms. -/
def all : List Transform :=
  [.name .camel, .name .kebab, .name .snake, .name .pascal, .argb, .rokuHex, .px, .dp, .sp,
    .number]

/-- The title of a transform in a configuration. -/
def title : Transform → String
  | .name .camel => "name/camel"
  | .name .kebab => "name/kebab"
  | .name .snake => "name/snake"
  | .name .pascal => "name/pascal"
  | .argb => "color/argb"
  | .rokuHex => "color/rokuHex"
  | .px => "size/px"
  | .dp => "size/dp"
  | .sp => "size/sp"
  | .number => "size/number"

/-- The transform with a title. -/
def ofTitle? (s : String) : Option Transform := all.find? fun t => t.title == s

/-- The class of tokens that a transform changes; names change for all tokens. -/
def filter? : Transform → Option TokenFilter
  | .name _ => none
  | .argb => some .color
  | .rokuHex => some .color
  | .px => some .dimension
  | .dp => some .dimension
  | .sp => some .fontSize
  | .number => some .dimension

/-- Does the transform change the token? -/
def accepts (t : Transform) (token : Token) : Except OutputError Bool :=
  match t.filter? with
  | none => .ok true
  | some f => f.accepts token

/-- The name of a path in a style, behind the prefix of the options if there is one. -/
def newName (style : NameStyle) (options : Fields) (path : Path) : String :=
  let start := options.getD "prefix"
  style.join (if start.isTruthy then start.plain :: path else path)

/-- A number with a unit; other values stay. -/
def withUnit (unit : String) (v : Json) : Json :=
  match v.numberText? with
  | some s => .str (s ++ unit)
  | none => v

/-- A floating point number as a value, whole ones as whole numbers. -/
def numberValue (x : Binary64) : Json := if x.isWhole then .int x.toInt else .float x

/-- The number that a text begins with; a text without one and all other values stay. -/
def leadingNumber (v : Json) : Json :=
  match v with
  | .str s => ((readLeadingNumber? s.toList).map numberValue).getD v
  | _ => v

/-- The value that a transform of values gives. -/
def newValue (t : Transform) (v : Json) : Except OutputError Json :=
  match t with
  | .name _ => .ok v
  | .argb => do
    let c ← (Color.read v).mapError .color
    return .str ("#" ++ c.argbHex)
  | .rokuHex => do
    let c ← (Color.read v).mapError .color
    return .str ("\"0x" ++ c.rgbaHex ++ "\"")
  | .px => .ok (withUnit "px" v)
  | .dp => .ok (withUnit "dp" v)
  | .sp => .ok (withUnit "sp" v)
  | .number => .ok (leadingNumber v)

/-- The transform of a token. -/
def apply (t : Transform) (options : Fields) (token : Token) : Except OutputError Token := do
  if ← t.accepts token then
    match t with
    | .name style => return { token with name := newName style options token.path }
    | _ => return { token with value := ← t.newValue token.value }
  else return token

/-- The transforms with the titles of a chain. -/
def chain (titles : List String) : Except OutputError (List Transform) :=
  titles.mapM fun s =>
    match ofTitle? s with
    | some t => .ok t
    | none => .error (.unknownTransform s)

end Transform

/-- The transforms of a list applied to a token one after the other. -/
def Token.transform (steps : List Transform) (options : Fields) (token : Token) :
    Except OutputError Token :=
  steps.foldlM (fun token t => t.apply options token) token

/-- A chain of transforms on every token. -/
def TokenList.transform (c : TokenList) (titles : List String) (options : Fields) :
    Except OutputError TokenList := do
  let steps ← Transform.chain titles
  return ⟨← c.tokens.mapM (Token.transform steps options)⟩

end StyleTokens
