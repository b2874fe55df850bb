import StyleTokens.Text.Digit
import StyleTokens.Text.Quoted

/-!
Arguments of commands.

An argument that begins with a hyphen is an option, unless it is a hyphen alone, a negative number, or
holds a blank and names no option. Long options may be cut short where that leaves one of them, and may
have their value behind an equals sign. After a double hyphen nothing is an option; one behind an equals
sign is a value that gives no text.

* `OptionSpec`, `Positional`, `ArgumentSpec`: what a command takes;
* `ArgumentStop`: a request for help, or an error with the name of the command;
* `OptionValue`: what an option is given;
* `ArgumentSpec.classify`: is an argument an option, and which?
* `ArgumentSpec.parse`: the options, the other arguments, and what is left over.
-/

namespace StyleTokens

/-- An option by its names, the longest last. -/
structure OptionSpec where
  names : List String
  takesValue : Bool
  deriving DecidableEq, Repr

/-- The last name of an option. -/
def OptionSpec.key (o : OptionSpec) : String := o.names.getLast?.getD ""

/-- An option in messages. -/
def OptionSpec.title (o : OptionSpec) : String := "/".intercalate o.names

/-- The arguments of a command that are no options: none, at most one, or the name of a command and
all that follows it. -/
inductive Positional where
  | none
  | optional
  | command (choices : List String)
  deriving DecidableEq, Repr

/-- What a command takes. -/
structure ArgumentSpec where
  program : String
  options : List OptionSpec
  positional : Positional
  deriving DecidableEq, Repr

/-- Why arguments are not used: help was asked for, or there is an error. -/
inductive ArgumentStop where
  | help
  | error (program text : String)
  deriving DecidableEq, Repr

/-- The line for an error. -/
def ArgumentStop.message : ArgumentStop → String
  | .help => ""
  | .error program text => program ++ ": error: " ++ text

/-- An argument that looks like an option: the option with the name by which it was found, unless there
is none, and the text behind the name. -/
structure OptionUse where
  found : Option (OptionSpec × String)
  attached : Option String := none
  deriving DecidableEq, Repr

/-- An argument by its role. -/
inductive Argument where
  | separator (text : String)
  | plain (text : String)
  | option (text : String) (use : OptionUse)
  deriving DecidableEq, Repr

/-- The text of an argument. -/
def Argument.text : Argument → String
  | .separator s => s
  | .plain s => s
  | .option s _ => s

/-- Is the argument an option? -/
def Argument.isOption : Argument → Bool
  | .option _ _ => true
  | _ => false

/-- What an option is given: a text, or nothing. -/
inductive OptionValue where
  | text (s : String)
  | nothing
  deriving DecidableEq, Repr

/-- A value as it is printed; nothing is an empty list. -/
def OptionValue.shown : OptionValue → String
  | .text s => s
  | .nothing => "[]"

/-- The value behind an equals sign. A double hyphen only ends the options there. -/
def OptionValue.ofAttached (s : String) : OptionValue := if s = "--" then .nothing else .text s

/-- What arguments give: options with their values, the arguments that are no options, and what is left
over. -/
structure ParsedArguments where
  options : List (String × OptionValue) := []
  positional : Option (List String) := none
  extras : List String := []
  deriving DecidableEq, Repr

namespace ArgumentSpec

/-- The option for help. -/
def helpOption : OptionSpec := ⟨["-h", "--help"], false⟩

/-- An error of a command. -/
def fail {α : Type} (spec : ArgumentSpec) (text : String) : Except ArgumentStop α :=
  .error (.error spec.program text)

/-- An error at an option. -/
def failAt {α : Type} (spec : ArgumentSpec) (o : OptionSpec) (text : String) :
    Except ArgumentStop α :=
  spec.fail ("argument " ++ o.title ++ ": " ++ text)

/-! ### Options -/

/-- All names of options, each with its option. -/
def optionNames (spec : ArgumentSpec) : List (String × OptionSpec) :=
  (helpOption :: spec.options).flatMap fun o => o.names.map fun n => (n, o)

/-- Is the text a hyphen with digits of any script behind it, and a point before some of them or
none? -/
def isNegativeNumeral (cs : List Char) : Bool :=
  match cs with
  | '-' :: rest =>
    match rest.dropWhile Text.isDecimal with
    | [] => !rest.isEmpty
    | '.' :: fraction => !fraction.isEmpty && fraction.all Text.isDecimal
    | _ => false
  | _ => false

/-- Is the text a negative number, but for one line feed at its end? -/
def isNegativeNumber (cs : List Char) : Bool :=
  isNegativeNumeral cs || (cs.getLast? == some '\n' && isNegativeNumeral cs.dropLast)

/-- The parts of a text before and after its first equals sign. -/
def cutAtEquals (cs : List Char) : String × Option String :=
  match cs.dropWhile (· ≠ '=') with
  | [] => (String.ofList cs, none)
  | _ :: value => (String.ofList (cs.takeWhile (· ≠ '=')), some (String.ofList value))

/-- The options that a text may mean: long ones that begin with it, or the short one at its front. -/
def candidates (spec : ArgumentSpec) (cs : List Char) : List OptionUse :=
  match cs with
  | '-' :: '-' :: _ =>
    let (front, value) := cutAtEquals cs
    (spec.optionNames.filter fun (n, _) => front.toList.isPrefixOf n.toList).map fun (n, o) =>
      ⟨some (o, n), value⟩
  | _ =>
    (spec.optionNames.filter fun (n, _) => n.toList == cs.take 2).map fun (n, o) =>
      ⟨some (o, n), some (String.ofList (cs.drop 2))⟩

/-- The option that an argument is, if it looks like one. -/
def optionUse? (spec : ArgumentSpec) (s : String) : Except ArgumentStop (Option OptionUse) :=
  match s.toList with
  | '-' :: c :: rest =>
    match spec.optionNames.lookup s with
    | some o => .ok (some ⟨some (o, s), none⟩)
    | none =>
      let (name, value) := cutAtEquals ('-' :: c :: rest)
      match value.bind fun v => (spec.optionNames.lookup name).map fun o => (o, v) with
      | some (o, v) => .ok (some ⟨some (o, name), some v⟩)
      | none =>
        match spec.candidates ('-' :: c :: rest) with
        | [] =>
          if isNegativeNumber ('-' :: c :: rest) || (c :: rest).contains ' ' then .ok none
          else .ok (some ⟨none, none⟩)
        | [use] => .ok (some use)
        | uses =>
          spec.fail ("ambiguous option: " ++ s ++ " could match " ++
            ", ".intercalate (uses.filterMap fun u => u.found.map (·.2)))
  | _ => .ok none

/-- The arguments by their roles. -/
def classify (spec : ArgumentSpec) : List String → Except ArgumentStop (List Argument)
  | [] => .ok []
  | s :: rest =>
    if s = "--" then .ok (.separator s :: rest.map .plain)
    else do
      let use ← spec.optionUse? s
      let others ← classify spec rest
      return (match use with
        | some u => .option s u
        | none => .plain s) :: others

/-- Stops at the text behind an option without a value. -/
def refuseAttached (spec : ArgumentSpec) (o : OptionSpec) (s : String) : Except ArgumentStop Unit :=
  spec.failAt o ("ignored explicit argument " ++ Text.quoted s)

/-- Stops at the text behind a short option without a value, unless all its letters are short options
without values too. -/
def checkLetters (spec : ArgumentSpec) (o : OptionSpec) : List Char → Except ArgumentStop Unit
  | [] => .ok ()
  | c :: rest =>
    match spec.optionNames.lookup (String.ofList ['-', c]) with
    | some next => checkLetters spec next rest
    | none => spec.refuseAttached o (String.ofList (c :: rest))

/-- What an option without a value does. -/
def takeFlag (spec : ArgumentSpec) (o : OptionSpec) (name : String) (use : OptionUse)
    (parsed : ParsedArguments) : Except ArgumentStop ParsedArguments := do
  match use.attached with
  | none => pure ()
  | some s =>
    if s = "" ∨ "--".toList.isPrefixOf name.toList then spec.refuseAttached o s
    else spec.checkLetters o s.toList
  if o = helpOption then throw .help
  return { parsed with options := parsed.options ++ [(o.key, .nothing)] }

/-- What an option does, and the arguments after it and its value. -/
def takeOption (spec : ArgumentSpec) (text : String) (use : OptionUse) (rest : List Argument)
    (parsed : ParsedArguments) : Except ArgumentStop (ParsedArguments × List Argument) :=
  let add (o : OptionSpec) (value : OptionValue) : ParsedArguments :=
    { parsed with options := parsed.options ++ [(o.key, value)] }
  match use.found with
  | none => .ok ({ parsed with extras := parsed.extras ++ [text] }, rest)
  | some (o, name) =>
    if o.takesValue then
      match use.attached, rest with
      | some s, _ => .ok (add o (.ofAttached s), rest)
      | none, .plain s :: rest => .ok (add o (.text s), rest)
      | none, _ => spec.failAt o "expected one argument"
    else (spec.takeFlag o name use parsed).map fun p => (p, rest)

/-! ### Other arguments -/

/-- What the arguments at the front give that are no options, and the arguments after them; none if
there is no place for them. -/
def takePositional? (spec : ArgumentSpec) (args : List Argument) (parsed : ParsedArguments) :
    Option (ParsedArguments × List Argument) :=
  if parsed.positional.isSome then none
  else match spec.positional with
    | .none => none
    | .command _ =>
      let texts := args.map Argument.text
      match args with
      | .plain _ :: _ => some ({ parsed with positional := some texts }, [])
      | .separator _ :: .plain _ :: _ => some ({ parsed with positional := some texts }, [])
      | _ => none
    | .optional =>
      let give (texts : List String) (rest : List Argument) :=
        some ({ parsed with positional := some (texts.erase "--") }, rest)
      match args with
      | .separator a :: .plain b :: rest => give [a, b] rest
      | .separator a :: rest => give [a] rest
      | .plain a :: .separator b :: rest => give [a, b] rest
      | .plain a :: rest => give [a] rest
      | _ => give [] args

/-- Takes arguments from the front until none are left; `fuel` bounds their number. -/
def consume (spec : ArgumentSpec) : (fuel : Nat) → List Argument → ParsedArguments →
    Except ArgumentStop ParsedArguments
  | 0, _, parsed => .ok parsed
  | fuel + 1, args, parsed =>
    let front := args.takeWhile fun a => !a.isOption
    match args.dropWhile fun a => !a.isOption with
    | .option text use :: rest =>
      match if front = [] then none else spec.takePositional? args parsed with
      | some (parsed, args) => consume spec fuel args parsed
      | none => do
        let (parsed, args) ← spec.takeOption text use rest
          { parsed with extras := parsed.extras ++ front.map Argument.text }
        consume spec fuel args parsed
    | _ =>
      match spec.takePositional? args parsed with
      | some (parsed, rest) =>
        .ok { parsed with extras := parsed.extras ++ rest.map Argument.text }
      | none => .ok { parsed with extras := parsed.extras ++ args.map Argument.text }

/-- What the arguments give. -/
def parse (spec : ArgumentSpec) (args : List String) : Except ArgumentStop ParsedArguments := do
  spec.consume (args.length + 1) (← spec.classify args) {}

end ArgumentSpec

end StyleTokens
