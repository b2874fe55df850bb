import StyleTokens.Event
import StyleTokens.Json.Shown
import StyleTokens.Json.Traverse
import StyleTokens.Token.Document
import StyleTokens.Token.Reference
import StyleTokens.Token.Words

/-!
Resolving references.

Documents are merged into one table, in which a path keeps its first place and takes its last
definition. Then the references inside every value are replaced: a text that is one reference takes
the value of the referenced token as it is, and a reference inside a longer text becomes text.

* `ResolveError`: a cycle of references, a reference to nothing, or a type tag that is a list or an
  object;
* `TokenTable`, `TokenTable.ofDocuments`: the merged definitions;
* `Json.embedded`: the text of a value inside a longer text;
* `replaceReferences`: a value with its references replaced by what a look-up gives;
* `TokenTable.evaluate`: the resolved value of a token, with the values found so far kept;
* `Resolution`, `resolve`: the resolved tokens, up to the first failure.
-/

namespace StyleTokens

/-- Why references cannot be resolved. A cycle is given by its paths, from a path to itself. -/
inductive ResolveError where
  | circular (chain : List Path)
  | dangling (owner : Path) (reference : String)
  | compositeTag (kind : CompositeKey)
  deriving DecidableEq, Repr

/-- The words for an error. -/
def ResolveError.message : ResolveError → String
  | .circular chain => "Circular token reference: " ++ " -> ".intercalate (chain.map Path.dotted)
  | .dangling owner reference =>
    "Token '" ++ owner.dotted ++ "' references missing token '\x7b" ++ reference ++ "\x7d'"
  | .compositeTag kind => kind.message

/-! ### Merged definitions -/

/-- Definitions of tokens, one for each path. -/
abbrev TokenTable := List Token

namespace TokenTable

/-- The definition of a path. -/
def get? (table : TokenTable) (path : Path) : Option Token := table.find? fun t => t.path == path

/-- Puts a definition in the place of the one with its path, or at the end. -/
def put (token : Token) : TokenTable → TokenTable
  | [] => [token]
  | t :: rest => if t.path = token.path then token :: rest else t :: put token rest

/-- The definitions with later ones put over earlier ones. -/
def ofTokens (tokens : List Token) : TokenTable := tokens.foldl (fun table t => put t table) []

/-- The merged definitions of documents. -/
def ofDocuments (docs : List Document) : TokenTable :=
  ofTokens (docs.flatMap Document.flatten)

end TokenTable

/-! ### Substitution -/

/-- The text of a value inside a longer text. -/
def Json.embedded (v : Json) : String :=
  match v.numberText? with
  | some s => s
  | none =>
    match v with
    | .arr _ => v.written
    | .obj _ => v.written
    | _ => v.plain

section Substitute

variable {m : Type → Type} [Monad m]

/-- The text that pieces make when references are looked up. -/
def replaceInPieces (lookup : String → m Json) : List Reference.Piece → m (List Char)
  | [] => pure []
  | .char c :: rest => do return c :: (← replaceInPieces lookup rest)
  | .reference name :: rest => do
    let v ← lookup (String.ofList name)
    let cs ← replaceInPieces lookup rest
    return v.embedded.toList ++ cs

/-- The value that a text stands for when references are looked up. -/
def replaceInText (lookup : String → m Json) (s : String) : m Json :=
  match Reference.whole? s.toList with
  | some name => lookup (String.ofList name)
  | none => do
    return .str (String.ofList (← replaceInPieces lookup (Reference.pieces s.toList)))

/-- A value with its references replaced by what a look-up gives for their names. -/
def replaceReferences (lookup : String → m Json) (v : Json) : m Json :=
  v.traverseStrings (replaceInText lookup)

end Substitute

/-! ### Values of tokens -/

/-- The path that a reference names. -/
def Reference.target (name : String) : Path := Text.ofDotted (Text.stripped name)

/-- The values found so far. -/
abbrev Memo := List (Path × Json)

/-- A computation with the values found so far. -/
abbrev Resolving := StateT Memo (Except ResolveError)

namespace TokenTable

/-- The resolved value of a token. The paths in `active` are those whose values are being computed,
the outermost first; they are distinct paths of the table, so `fuel` above their number in the table
is enough. -/
def evaluate (table : TokenTable) : (fuel : Nat) → (active : List Path) → Token → Resolving Json
  | 0, active, token => throw (.circular (active ++ [token.path]))
  | fuel + 1, active, token => do
    match (← get).lookup token.path with
    | some v => return v
    | none =>
      if token.path ∈ active then
        throw (.circular (active.dropWhile (· ≠ token.path) ++ [token.path]))
      else
        let v ← replaceReferences (fun name =>
          match table.get? (Reference.target name) with
          | some t => evaluate table fuel (active ++ [token.path]) t
          | none => throw (.dangling token.path (Text.stripped name))) token.value
        modify fun memo => (token.path, v) :: memo
        return v

end TokenTable

/-! ### Resolving documents -/

/-- The tokens resolved in order, and why the next one could not be. -/
structure Resolution where
  tokens : List Token
  failure : Option ResolveError

/-- The definition with its value and its name. -/
def Token.resolved (token : Token) (value : Json) : Token :=
  { token with value, name := camelName token.path }

/-- Is the type tag of the token absent or one with a meaning? -/
def Token.hasKnownTag (token : Token) : Except CompositeKey Bool :=
  if token.tag.isNull then .ok true else token.tag.isOneOf knownTags

/-- Resolves tokens of a table in order up to the first failure. -/
def TokenTable.resolveEach (table : TokenTable) : List Token → Memo → Resolution
  | [], _ => ⟨[], none⟩
  | token :: rest, memo =>
    match token.hasKnownTag with
    | .error kind => ⟨[], some (.compositeTag kind)⟩
    | .ok _ =>
      match (table.evaluate (table.length + 1) [] token).run memo with
      | .error e => ⟨[], some e⟩
      | .ok (v, memo) =>
        let r := resolveEach table rest memo
        ⟨token.resolved v :: r.tokens, r.failure⟩

/-- Resolves documents up to the first failure. -/
def resolution (docs : List Document) : Resolution :=
  let table := TokenTable.ofDocuments docs
  table.resolveEach table []

/-- The resolved tokens of documents. -/
def resolve (docs : List Document) : Except ResolveError TokenList :=
  let r := resolution docs
  match r.failure with
  | none => .ok ⟨r.tokens⟩
  | some e => .error e

/-! ### What is reported -/

/-- The channel of the records. -/
def resolveChannel : String := "design_token_compiler.pipeline.tokens.resolve"

/-- The topic of the traces. -/
def resolveTopic : String := "resolve"

/-- The traces of definitions that take the place of earlier ones. -/
def overrideEvents : (seen : List Path) → List Token → List Event
  | _, [] => []
  | seen, t :: rest =>
    (if t.path ∈ seen then
      [.trace resolveTopic ("override " ++ t.dotted ++ " from " ++ t.source.getD "")]
    else []) ++ overrideEvents (t.path :: seen) rest

/-- The record of a type tag without a meaning. -/
def Token.tagWarning? (token : Token) : Option Event :=
  match token.hasKnownTag with
  | .ok false =>
    some (.record .warning resolveChannel
      ("Token " ++ token.dotted ++ " has unknown type " ++ token.tag.shown))
  | _ => none

/-- What is reported while documents are resolved: the overrides, then the type tags without a
meaning up to the first failure, then the number of tokens. -/
def resolveEvents (docs : List Document) : List Event :=
  let r := resolution docs
  overrideEvents [] (docs.flatMap Document.flatten) ++
    ((TokenTable.ofDocuments docs).take (r.tokens.length + 1)).filterMap Token.tagWarning? ++
    if r.failure.isNone then
      [.trace resolveTopic ("resolved " ++ toString r.tokens.length ++ " tokens from " ++
        toString docs.length ++ " document(s)")]
    else []

end StyleTokens
