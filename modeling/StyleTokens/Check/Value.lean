import StyleTokens.Check.Entry
import StyleTokens.Json.Shown
import StyleTokens.Output.Error

/-!
What tokens have to declare.

* `Findings`: errors and warnings in the order in which they are found;
* `CheckFailure`: what stops the check of a document;
* `checkToken`: a value, a known type tag, and a value that suits the type tag;
* `checkDeclarations`: the findings of a document.
-/

namespace StyleTokens

/-- Errors and warnings. -/
structure Findings where
  errors : List String := []
  warnings : List String := []
  deriving DecidableEq, Repr

namespace Findings

/-- The findings of both, those of the first one first. -/
def append (a b : Findings) : Findings := ⟨a.errors ++ b.errors, a.warnings ++ b.warnings⟩

/-- One error. -/
def error (s : String) : Findings := ⟨[s], []⟩

/-- A warning, if there is cause for it. -/
def warnIf (cause : Bool) (s : String) : Findings := ⟨[], if cause then [s] else []⟩

end Findings

/-- What stops the check of a document. -/
inductive CheckFailure where
  | compositeTag (kind : CompositeKey)
  | channelInfinite
  deriving DecidableEq, Repr

/-- The words for a failure. -/
def CheckFailure.message : CheckFailure → String
  | .compositeTag kind => kind.message
  | .channelInfinite => ColorError.channelInfinite.message

/-- Does the value begin like a reference? -/
def beginsReference : Json → Bool
  | .str s => s.toList.head? == some '{'
  | _ => false

/-- The finding on a colour: it has to be readable, unless it begins like a reference. -/
def checkColor (location : String) (value : Json) : Except CheckFailure Findings :=
  if beginsReference value then .ok {}
  else match Color.read value with
    | .ok _ => .ok {}
    | .error .channelInfinite => .error .channelInfinite
    | .error _ => .ok (.error (location ++ " has invalid color value \"" ++ value.plain ++ "\""))

/-- The findings on a token at a path. -/
def checkToken (file path : String) (fields : Fields) : Except CheckFailure Findings := do
  let value := fields.declared "value"
  let tag := fields.declared "type"
  let location := file ++ ": Token \"" ++ path ++ "\""
  if value.isNull then return .error (location ++ " is missing \"value\" property")
  else if tag.isNull then return .error (location ++ " is missing \"type\" property")
  else
    let known ← (tag.isOneOf knownTags).mapError .compositeTag
    let colorFindings ← if tag.isText "color" then checkColor location value else .ok {}
    let numeric ← (tag.isOneOf numericTags).mapError .compositeTag
    return (Findings.warnIf (!known)
        (location ++ " has unknown type \"" ++ tag.plain ++ "\"")).append
      (colorFindings.append
        (Findings.warnIf (numeric && !value.isNumber && !beginsReference value)
          (location ++ " has non-numeric value \"" ++ value.plain ++ "\" with type \"" ++
            tag.plain ++ "\"")))

mutual
/-- The findings at a key with its value. -/
def checkAt (file path key : String) : Json → Except CheckFailure Findings
  | .obj fields =>
    if Fields.declaresValue fields then checkToken file (dottedKey path key) fields
    else checkIn file (dottedKey path key) fields
  | _ => .ok {}
/-- The findings in the entries of an object. -/
def checkIn (file path : String) : List (String × Json) → Except CheckFailure Findings
  | [] => .ok {}
  | (key, x) :: rest => do
    let a ← checkAt file path key x
    let b ← checkIn file path rest
    return a.append b
end

/-- The findings of a document. -/
def checkDeclarations (file : String) (fields : Fields) : Except CheckFailure Findings :=
  checkIn file "" fields

end StyleTokens
