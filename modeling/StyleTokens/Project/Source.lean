import StyleTokens.Project.Workspace
import StyleTokens.Token.Document

/-!
Token sources.

* `SourceError`: why a source cannot be used, with `SourceError.isReported` for the errors that have
  a message for people;
* `Workspace.loadDocument`, `Workspace.loadDocuments`: the documents in files.
-/

namespace StyleTokens

/-- Why a token source cannot be used. An error of the system is one of names that no file can
have. -/
inductive SourceError where
  | system (cause : SystemError)
  | missing (path : String)
  | unreadable (path : String) (cause : SystemError)
  | undecodable (cause : Utf8Error)
  | malformed (path : String) (cause : Json.SyntaxError)
  | longNumber (digits : Nat)
  | notObject (path : String)

/-- The words for an error. -/
def SourceError.message : SourceError → String
  | .system cause => cause.message
  | .missing path => "Token source not found: " ++ path
  | .unreadable path cause => "Cannot read " ++ path ++ ": " ++ cause.message
  | .undecodable cause => Utf8.errorMessage cause
  | .malformed path cause => "Invalid JSON in " ++ path ++ ": " ++ cause.message
  | .longNumber digits => Json.longNumberMessage (some digits)
  | .notObject path => path ++ ": token source root must be a JSON object"

/-- Has the error a message for people? Names that no file can have, text that is not encoded and
whole numbers of too many digits are not dealt with. -/
def SourceError.isReported : SourceError → Bool
  | .system _ => false
  | .undecodable _ => false
  | .longNumber _ => false
  | _ => true

/-- The error of a source at a path name that holds no value. -/
def SourceError.ofDocument (path : String) : DocumentError → SourceError
  | .read (.system cause) =>
    match cause.fault with
    | .notFound => .missing path
    | .nullCharacter => .system cause
    | _ => .unreadable path cause
  | .read (.encoding cause) => .undecodable cause
  | .text (.malformed cause) => .malformed path cause
  | .text (.longNumber digits) => .longNumber digits

namespace Workspace

/-- The document in a file, labelled by its path name. -/
def loadDocument (w : Workspace) (p : Pathname) : Except SourceError Document := do
  match ← (w.readDocument p).mapError (.ofDocument p.text) with
  | .obj fields => return ⟨p.text, fields⟩
  | _ => throw (.notObject p.text)

/-- The documents in files, in order. -/
def loadDocuments (w : Workspace) (paths : List Pathname) :
    Except SourceError (List Document) :=
  paths.mapM w.loadDocument

end Workspace

end StyleTokens
