import StyleTokens.Output.Error

/-!
Classes of tokens.

* `TokenFilter`: colours, sizes, font sizes and typography;
* `TokenFilter.accepts`: does a token belong to the class?
* `TokenFilter.ofName?`: the classes that a configuration can name;
* `TokenList.filter`, `TokenList.filterNamed`: the tokens of a class, in order;
* `TokenList.selected`: the tokens of a class that need not be named.
-/

namespace StyleTokens

/-- A class of tokens. -/
inductive TokenFilter where
  | color
  | dimension
  | fontSize
  | typography
  deriving DecidableEq, Repr

namespace TokenFilter

/-- Does the path speak of a font and of a size or a line height? -/
def namesFontSize (path : Path) : Bool :=
  let cs := path.dotted.toList
  Text.occursIn "font".toList cs &&
    (Text.occursIn "size".toList cs || Text.occursIn "line_height".toList cs)

/-- Does the token belong to the class? Colours and sizes are told by the type tag, font sizes by
the path and typography by either. -/
def accepts (f : TokenFilter) (t : Token) : Except OutputError Bool :=
  let tagged (names : List String) := (t.tag.isOneOf names).mapError .compositeTag
  match f with
  | .color => .ok (t.tag.isText "color")
  | .dimension => tagged numericTags
  | .fontSize => .ok (namesFontSize t.path)
  | .typography => if t.category = "typography" then .ok true else tagged fontTags

/-- The names of classes in a configuration. -/
def named : List (String × TokenFilter) :=
  [("is_color", .color), ("is_dimension", .dimension), ("is_typography", .typography)]

/-- The class with a name. -/
def ofName? (name : String) : Option TokenFilter := named.lookup name

end TokenFilter

/-- The tokens of a class, in order. -/
def TokenList.filter (c : TokenList) (f : TokenFilter) :
    Except OutputError TokenList := do
  return ⟨← c.tokens.filterM f.accepts⟩

/-- The tokens of the class with a name. -/
def TokenList.filterNamed (c : TokenList) (name : String) : Except OutputError TokenList :=
  match TokenFilter.ofName? name with
  | some f => c.filter f
  | none => .error (.unknownFilter name)

/-- The tokens of the class with a name, or all if there is no name or an empty one. -/
def TokenList.selected (c : TokenList) (name : Option String) : Except OutputError TokenList :=
  match name with
  | none => .ok c
  | some name => if name = "" then .ok c else c.filterNamed name

end StyleTokens
