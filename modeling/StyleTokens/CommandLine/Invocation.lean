import StyleTokens.CommandLine.Arguments

/-!
The commands of the program.

* `Command`: what the program is asked to do;
* `Invocation`: a command, and whether records of all levels are wanted;
* `Invocation.read`: the invocation that arguments ask for.
-/

namespace StyleTokens

/-- What the program is asked to do. -/
inductive Command where
  | build (config : Option OptionValue) (root : OptionValue) (platforms : List OptionValue)
  | compareDirectories (baseline : String) (tokens : OptionValue)
  | checkKeys (tokens : OptionValue)
  | checkTokens (tokens : OptionValue)
  deriving DecidableEq, Repr

/-- A command, and whether records of all levels are wanted. -/
structure Invocation where
  debug : Bool
  command : Command
  deriving DecidableEq, Repr

namespace ParsedArguments

/-- The last value of an option. -/
def value? (p : ParsedArguments) (key : String) : Option OptionValue := p.options.reverse.lookup key

/-- All values of an option, in order. -/
def values (p : ParsedArguments) (key : String) : List OptionValue :=
  p.options.filterMap fun (k, v) => if k = key then some v else none

end ParsedArguments

namespace Invocation

/-- The name of the program. -/
def program : String := "design-tokens"

/-- An option with a value. -/
def valueOption (name : String) : OptionSpec := ⟨[name], true⟩

/-- The names of the commands. -/
def commandNames : List String := ["build", "check-breaking", "validate-naming", "validate-format"]

/-- What the program takes before the name of a command. -/
def mainSpec : ArgumentSpec := ⟨program, [⟨["--debug"], false⟩], .command commandNames⟩

/-- What a command takes. -/
def commandSpec (name : String) : ArgumentSpec :=
  let spec := ArgumentSpec.mk (program ++ " " ++ name)
  if name = "build" then
    spec [valueOption "--config", valueOption "--root", valueOption "--platform"] .none
  else if name = "check-breaking" then spec [valueOption "--tokens"] .optional
  else spec [valueOption "--tokens"] .none

/-- The directory of tokens that is meant when none is given. -/
def defaultTokens : String := "tokens"

/-- The directory of the baseline that is meant when none is given. -/
def defaultBaseline : String := "tokens-baseline"

/-- The command with a name and its arguments. -/
def commandOf (name : String) (p : ParsedArguments) : Command :=
  let tokens := (p.value? "--tokens").getD (.text defaultTokens)
  if name = "build" then
    .build (p.value? "--config") ((p.value? "--root").getD (.text ".")) (p.values "--platform")
  else if name = "check-breaking" then
    .compareDirectories (((p.positional.getD []).head?).getD defaultBaseline) tokens
  else if name = "validate-naming" then .checkKeys tokens
  else .checkTokens tokens

/-- The invocation that arguments ask for. What is left over before and after the name of the command
is reported together. -/
def read (args : List String) : Except ArgumentStop Invocation := do
  let outer ← mainSpec.parse args
  match outer.positional with
  | some (name :: rest) =>
    if commandNames.contains name then
      let inner ← (commandSpec name).parse rest
      let extras := outer.extras ++ inner.extras
      if extras ≠ [] then mainSpec.fail ("unrecognized arguments: " ++ " ".intercalate extras)
      else return ⟨(outer.value? "--debug").isSome, commandOf name inner⟩
    else
      mainSpec.fail ("argument command: invalid choice: " ++ Text.quoted name ++ " (choose from " ++
        ", ".intercalate (commandNames.map Text.quoted) ++ ")")
  | _ => mainSpec.fail "the following arguments are required: command"

end Invocation

end StyleTokens
