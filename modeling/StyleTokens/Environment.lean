import StyleTokens.File.Tree

/-!
Variables of the environment.

* `Environment`: names with their texts;
* `Environment.value`, `Environment.expandHome`: what variables say;
* `Environment.set`, `Environment.unset`: changes, with `VariableError` for what cannot be set.
-/

namespace StyleTokens

/-- The variables of the environment. -/
abbrev Environment := List (String × String)

/-- Why a variable cannot be set. -/
inductive VariableError where
  | nullCharacter
  | illegalName
  | emptyName
  deriving DecidableEq, Repr

/-- The words for an error. -/
def VariableError.message : VariableError → String
  | .nullCharacter => "embedded null byte"
  | .illegalName => "illegal environment variable name"
  | .emptyName => "[Errno 22] Invalid argument"

namespace Environment

/-- The text of a variable, empty if it is not set. -/
def value (env : Environment) (name : String) : String := (env.lookup name).getD ""

/-- A path name with the home directory in the place of a tilde at its front. -/
def expandHome (env : Environment) (s : String) : String :=
  match s.toList, env.lookup "HOME" with
  | '~' :: rest, some home =>
    if rest.head?.all (· == '/') then
      let cs := (home.toList.reverse.dropWhile (· == '/')).reverse ++ rest
      if cs = [] then "/" else String.ofList cs
    else s
  | _, _ => s

/-- The variables without one of a name. -/
def unset (env : Environment) (name : String) : Environment := env.filter fun v => v.1 != name

/-- The variables with one of a name and a text. -/
def set (env : Environment) (name text : String) : Except VariableError Environment :=
  if hasNull name || hasNull text then .error .nullCharacter
  else if name.toList.contains '=' then .error .illegalName
  else if name = "" then .error .emptyName
  else .ok ((name, text) :: env.unset name)

end Environment

end StyleTokens
