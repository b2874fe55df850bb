import StyleTokens.Token.Basic

/-!
Source documents.

* `Document`: an object with a label for messages;
* `Json.declaresValue`: an object that declares a value is a token;
* `Fields.declared`: what a token declares under a key, in its plain or its `$` form;
* `Document.flatten`: the unresolved tokens of a document, in document order. Objects under keys
  with a `$` that are no tokens are metadata and skipped.
-/

namespace StyleTokens

/-- An object with a label for messages. -/
structure Document where
  label : String
  fields : Fields
  deriving Repr, Inhabited

/-- Does the object declare a value? -/
def Fields.declaresValue (fields : Fields) : Bool := fields.has "value" || fields.has "$value"

/-- Is the value an object that declares a value? -/
def Json.declaresValue : Json → Bool
  | .obj fields => Fields.declaresValue fields
  | _ => false

/-- What a token declares under a key: the plain key goes before the one with a `$`. -/
def Fields.declared (fields : Fields) (key : String) : Json :=
  if fields.has key then fields.getD key else fields.getD ("$" ++ key)

/-- Does the key begin with a `$`? -/
def isMetadataKey (key : String) : Bool := key.toList.head? == some '$'

/-- The unresolved token of an object that declares a value. -/
def Token.ofNode (label : String) (path : Path) (fields : Fields) : Token where
  path
  value := fields.declared "value"
  tag := fields.declared "type"
  declared := fields.declared "value"
  description := fields.declared "description"
  source := some label

namespace Document

mutual
/-- The tokens at a key with its value. -/
def tokensAt (label : String) (path : Path) (key : String) : Json → List Token
  | .obj fields =>
    if Fields.declaresValue fields then [Token.ofNode label (path ++ [key]) fields]
    else if isMetadataKey key then []
    else tokensIn label (path ++ [key]) fields
  | _ => []
/-- The tokens in the entries of an object. -/
def tokensIn (label : String) (path : Path) : List (String × Json) → List Token
  | [] => []
  | (key, x) :: rest => tokensAt label path key x ++ tokensIn label path rest
end

/-- The unresolved tokens of a document, in document order. -/
def flatten (doc : Document) : List Token := tokensIn doc.label [] doc.fields

end Document

end StyleTokens
