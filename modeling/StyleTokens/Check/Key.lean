import StyleTokens.Check.Entry
import StyleTokens.Text.Case
import StyleTokens.Token.Words

/-!
The convention for keys.

* `isConventional`: a word in lower case with digits and underscores, a number, or a number with
  letters behind it;
* `isAccepted`: a text that is conventional, or that is so but for one line feed at its end;
* `keyMessage?`: what is wrong with a key, with advice where a simple rule repairs it;
* `keyMessages`: the messages for the keys of a document. Keys inside tokens are not looked at.
-/

namespace StyleTokens

open Words (isLower isUpper isDigit)

/-! ### The convention -/

/-- Does the text follow the convention? -/
def isConventional (cs : List Char) : Bool :=
  match cs with
  | [] => false
  | c :: rest =>
    if isLower c then rest.all fun d => isLower d || isDigit d || d == '_'
    else isDigit c && (rest.dropWhile isDigit).all isLower

/-- Does the text follow the convention, but for one line feed at its end? -/
def isAccepted (cs : List Char) : Bool :=
  isConventional cs || (cs.getLast? == some '\n' && isConventional cs.dropLast)

/-! ### Messages -/

/-- A text with an underscore before every upper case ASCII letter, in lower case. -/
def snakeAdvice (key : String) : String :=
  String.ofList (Text.lower (key.toList.flatMap fun c => if isUpper c then ['_', c] else [c]))

/-- A text with underscores for hyphens. -/
def hyphenAdvice (key : String) : String :=
  String.ofList (key.toList.map fun c => if c = '-' then '_' else c)

/-- What is wrong with a key at a path, or none for keys that are accepted and for metadata. -/
def keyMessage? (key parent file : String) : Option String :=
  if isMetadataKey key || isAccepted key.toList then none
  else
    let location := file ++ ": Key \"" ++ key ++ "\" at \"" ++ parent ++ "\""
    some (location ++
      if key.toList.any Text.isUpper then
        " uses camelCase. Use snake_case instead (e.g., \"" ++ snakeAdvice key ++ "\")"
      else if key.toList.contains '-' then
        " uses hyphens. Use underscores instead (e.g., \"" ++ hyphenAdvice key ++ "\")"
      else " has invalid format. Use lowercase with underscores.")

mutual
/-- The messages for the keys below a key, given its value. -/
def keyMessagesAt (file path key : String) : Json → List String
  | .obj fields =>
    if Fields.declaresValue fields then [] else keyMessagesIn file (dottedKey path key) fields
  | _ => []
/-- The messages for the keys of an object and for those below them. -/
def keyMessagesIn (file path : String) : List (String × Json) → List String
  | [] => []
  | (key, x) :: rest =>
    (keyMessage? key (if path = "" then "root" else path) file).toList ++
      keyMessagesAt file path key x ++ keyMessagesIn file path rest
end

/-- The messages for the keys of a document. -/
def keyMessages (file : String) (fields : Fields) : List String :=
  keyMessagesIn file "" fields

/-- The convention for people. -/
def conventionLines : List String :=
  ["Use lowercase letters and underscores: \"primary_background\"",
    "Numeric keys allowed for scales: \"50\", \"100\", \"500\"",
    "State suffixes: \"_hover\", \"_pressed\", \"_disabled\", \"_focused\""]

end StyleTokens
