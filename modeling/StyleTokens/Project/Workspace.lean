import StyleTokens.File.Tree
import StyleTokens.Json.Reader

/-!
The files of a project.

* `Workspace`: a tree of files and the directory from which path names are seen;
* `Workspace.tokenFiles`: the token files below a directory, in the order of their names;
* `Workspace.readDocument`: the value in a file.
-/

namespace StyleTokens

/-- A tree of files and the directory from which path names are seen. -/
structure Workspace where
  tree : FileTree
  cwd : Location
  deriving DecidableEq, Repr

/-- Why there is no value in a file. -/
inductive DocumentError where
  | read (cause : ReadError)
  | text (cause : Json.TextError)

/-- The words for an error. -/
def DocumentError.message : DocumentError → String
  | .read cause => cause.message
  | .text cause => cause.message

namespace Workspace

/-- Does the path name lead to a directory? -/
def isDirectory (w : Workspace) (p : Pathname) : Except SystemError Bool :=
  w.tree.isDirectory w.cwd p

/-- Is the name one of a token file? Names with a `$` at the front are those of metadata. -/
def isTokenFile (name : String) : Bool :=
  ".json".toList.isSuffixOf name.toList && name.toList.head? != some '$'

/-- The token files at and below a directory, in the order of the names that lead to them. There
are none if the path name does not lead to a directory. -/
def tokenFiles (w : Workspace) (root : Pathname) : Except SystemError (List Pathname) := do
  if ← w.isDirectory root then
    match w.tree.follow w.cwd root with
    | .ok l =>
      return ((w.tree.filesBelow l).filter fun names => isTokenFile (names.getLast?.getD "")).map
        fun names => { root with parts := root.parts ++ names }
    | .error _ => return []
  else return []

/-- The value in a file. -/
def readDocument (w : Workspace) (p : Pathname) : Except DocumentError Json := do
  let cs ← (w.tree.readText w.cwd p).mapError .read
  (Json.readChars cs).mapError .text

end Workspace

end StyleTokens
