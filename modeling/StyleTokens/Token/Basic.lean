import StyleTokens.Bits
import StyleTokens.Json.Writer
import StyleTokens.Text.Segment

/-!
Style tokens.

* `Path`: the keys that lead to a token;
* `Token`: a path with a value, a type tag, a name and what the source document declared;
* `knownTags`, `numericTags`, `fontTags`: the type tags with a meaning;
* `Json.isOneOf`: membership of a value in a set of names, with `CompositeKey` for the values that
  cannot be looked up;
* `TokenList`: tokens in order, with look-up by path and by position;
* `PositionError`: why there is no token at a position.
-/

namespace StyleTokens

/-- The keys that lead to a token. -/
abbrev Path := List String

/-- The keys with dots between them. -/
def Path.dotted (path : Path) : String := Text.dotted path

/-- A style token. The value of a resolved token is free of references; `declared` is the value
that the source document declared. -/
structure Token where
  path : Path
  value : Json
  tag : Json := .null
  name : String := ""
  declared : Json := .null
  description : Json := .null
  source : Option String := none
  deriving Repr, Inhabited

namespace Token

/-- The keys with dots between them. -/
def dotted (t : Token) : String := t.path.dotted

/-- The first key, or a name for tokens without any. -/
def category (t : Token) : String := t.path.head?.getD "misc"

end Token

/-! ### Type tags -/

/-- The type tags with a meaning. -/
def knownTags : List String :=
  ["color", "number", "dimension", "fontFamily", "fontWeight", "duration", "cubicBezier", "shadow",
    "border", "gradient", "typography", "spacing", "borderRadius", "borderWidth", "opacity",
    "sizing", "fontFamilies", "fontSizes", "fontWeights", "lineHeights", "letterSpacing",
    "paragraphSpacing", "textCase", "textDecoration"]

/-- The type tags of sizes. -/
def numericTags : List String := ["number", "dimension"]

/-- The type tags of fonts. -/
def fontTags : List String :=
  ["fontFamily", "fontWeight", "fontFamilies", "fontSizes", "fontWeights", "lineHeights",
    "letterSpacing", "paragraphSpacing", "typography"]

/-- A list or an object where a plain value is looked up in a set of names. -/
inductive CompositeKey where
  | list
  | object
  deriving DecidableEq, Repr

/-- The words for the error. -/
def CompositeKey.message : CompositeKey → String
  | .list => "unhashable type: 'list'"
  | .object => "unhashable type: 'dict'"

/-- Is the value one of the names? Plain values other than strings are not, and lists and objects
cannot be looked up. -/
def Json.isOneOf (names : List String) : Json → Except CompositeKey Bool
  | .arr _ => .error .list
  | .obj _ => .error .object
  | .str s => .ok (names.contains s)
  | _ => .ok false

/-- Is the value the given string? -/
def Json.isText (s : String) : Json → Bool
  | .str t => t == s
  | _ => false

/-! ### Lists of tokens -/

/-- Why there is no token at a position. -/
inductive PositionError where
  | wide
  | outside
  deriving DecidableEq, Repr

/-- The words for an error. -/
def PositionError.message : PositionError → String
  | .wide => "cannot fit 'int' into an index-sized integer"
  | .outside => "tuple index out of range"

/-- Tokens in order. -/
structure TokenList where
  tokens : List Token
  deriving Repr, Inhabited

namespace TokenList

/-- The last token with the path. -/
def get? (c : TokenList) (path : Path) : Option Token :=
  c.tokens.reverse.find? fun t => t.path == path

/-- Is there a token with the path? -/
def has (c : TokenList) (path : Path) : Bool := (c.get? path).isSome

/-- The number of tokens. -/
def size (c : TokenList) : Nat := c.tokens.length

/-- The token at a position; negative positions count from the end. -/
def at? (c : TokenList) (i : Int) : Option Token :=
  let position := if i < 0 then i + c.size else i
  if position < 0 then none else c.tokens[position.toNat]?

/-- The token at a position. Positions are numbers of 64 bits. -/
def tokenAt (c : TokenList) (i : Int) : Except PositionError Token :=
  if fitsBits 64 i then
    match c.at? i with
    | some t => .ok t
    | none => .error .outside
  else .error .wide

/-- A bound of a range as a position: negative bounds count from the end, and all are moved into the
range of positions. -/
def bound (c : TokenList) (i : Int) : Nat :=
  min (if i < 0 then i + c.size else i).toNat c.size

/-- The tokens from one position to before another one; a missing bound is the end of its side. -/
def slice (c : TokenList) (start stop : Option Int) : List Token :=
  let a := (start.map c.bound).getD 0
  let b := (stop.map c.bound).getD c.size
  (c.tokens.take b).drop a

/-- A token that is found has the path. -/
theorem path_of_get? {c : TokenList} {path : Path} {t : Token} (h : c.get? path = some t) :
    t.path = path := by
  simpa using List.find?_some h

end TokenList

end StyleTokens
