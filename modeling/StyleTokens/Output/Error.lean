import StyleTokens.Color.Reader
import StyleTokens.Token.Basic

/-!
Why the tokens of a platform cannot be written.

* `OutputError`: an unknown name, a value that is no colour, a type tag that cannot be looked up, a
  whole number of too many digits, or paths that do not form a tree.
-/

namespace StyleTokens

/-- Why tokens cannot be transformed, filtered or written. -/
inductive OutputError where
  | color (cause : ColorError)
  | compositeTag (kind : CompositeKey)
  | longNumber
  | unknownTransform (name : String)
  | unknownFilter (name : String)
  | unknownFormat (name : String)
  | tokenAndGroup (path : Path)
  | emptyPath
  deriving DecidableEq, Repr

/-- The words for an error. Names that are looked up in vain are shown between quote marks. -/
def OutputError.message : OutputError → String
  | .color cause => cause.message
  | .compositeTag kind => kind.message
  | .longNumber => Json.longNumberMessage none
  | .unknownTransform name => Text.quoted ("Unknown transform '" ++ name ++ "'")
  | .unknownFilter name => Text.quoted name
  | .unknownFormat name => Text.quoted ("Unknown format '" ++ name ++ "'")
  | .tokenAndGroup path => "Token path '" ++ path.dotted ++ "' is both a token and a group"
  | .emptyPath => "not enough values to unpack (expected at least 1, got 0)"

end StyleTokens
