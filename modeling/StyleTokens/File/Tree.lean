import StyleTokens.File.Pathname
import StyleTokens.File.Utf8
import StyleTokens.Text.Quoted

/-!
A tree of files.

* `FileTree`: directories and files by location; every file has the time of its last change;
* `SystemFault`, `SystemError`: what can go wrong with a path name;
* `Pathname.fault?`, `Pathname.locate`: path names that no file can have, and the location of a path
  name;
* `FileTree.follow`: the location that a path name leads to, through directories that exist;
* `FileTree.isDirectory`: what stands at a path name;
* `FileTree.readBytes`, `FileTree.readText`: the content of a file;
* `FileTree.makeDirectory`, `FileTree.makeDirectories`, `FileTree.writeFile`, `FileTree.delete`;
* `FileTree.filesBelow`: the files below a directory, in the order of their names.
-/

namespace StyleTokens

/-- The time of a change: one that was set in seconds, or the place in the order of changes. -/
inductive Stamp where
  | set (seconds : Int)
  | tick (n : Nat)
  deriving DecidableEq, Repr

/-- What stands at a location. -/
inductive Entry where
  | directory
  | file (content : List UInt8) (stamp : Stamp)
  deriving DecidableEq, Repr

/-- Directories and files by location. The root is a directory and has no entry. -/
structure FileTree where
  entries : List (Location × Entry) := []
  ticks : Nat := 0
  deriving DecidableEq, Repr

/-- What is wrong with a path name. -/
inductive SystemFault where
  | notFound
  | exists
  | notDirectory
  | isDirectory
  | invalid
  | nameTooLong
  | nullCharacter
  deriving DecidableEq, Repr

/-- A fault and the path name that has it. -/
structure SystemError where
  fault : SystemFault
  path : String
  deriving DecidableEq, Repr

/-- The words for an error. A null character is found before anything is done with the path name,
which is not shown then. -/
def SystemError.message (e : SystemError) : String :=
  let shown (words : String) : String := words ++ ": " ++ Text.quoted e.path
  match e.fault with
  | .notFound => shown "[Errno 2] No such file or directory"
  | .exists => shown "[Errno 17] File exists"
  | .notDirectory => shown "[Errno 20] Not a directory"
  | .isDirectory => shown "[Errno 21] Is a directory"
  | .invalid => shown "[Errno 22] Invalid argument"
  | .nameTooLong => shown "[Errno 36] File name too long"
  | .nullCharacter => "embedded null byte"

/-- Why a text cannot be read from a file. -/
inductive ReadError where
  | system (cause : SystemError)
  | encoding (cause : Utf8Error)
  deriving DecidableEq, Repr

/-- The words for an error. -/
def ReadError.message : ReadError → String
  | .system cause => cause.message
  | .encoding cause => Utf8.errorMessage cause

/-! ### Names that no file can have -/

/-- The greatest number of bytes of a name. -/
def nameLimit : Nat := 255

/-- The number of bytes from which on a path name is too long. -/
def pathLimit : Nat := 4096

/-- Has the text a null character? -/
def hasNull (s : String) : Bool := s.toList.any fun c => c.toNat == 0

/-- What is wrong with a path name whatever files there are. -/
def Pathname.fault? (p : Pathname) : Option SystemFault :=
  if p.parts.any hasNull then some .nullCharacter
  else if pathLimit ≤ p.text.utf8ByteSize then some .nameTooLong
  else none

/-- The location of a path name without null characters, however long it is. -/
def Pathname.locate (cwd : Location) (p : Pathname) : Except SystemError Location :=
  if p.parts.any hasNull then .error ⟨.nullCharacter, p.text⟩ else .ok (p.resolve cwd)

namespace FileTree

/-! ### Looking -/

/-- What stands at a location. -/
def get? (t : FileTree) (l : Location) : Option Entry :=
  if l = [] then some .directory else t.entries.lookup l

/-- Is there a directory at the location? -/
def hasDirectory (t : FileTree) (l : Location) : Bool :=
  match t.get? l with
  | some .directory => true
  | _ => false

/-- The location that names lead to from a location. Every step starts at a directory that
exists. -/
def walk (t : FileTree) (l : Location) : List String → Except SystemFault Location
  | [] => .ok l
  | name :: names =>
    if t.hasDirectory l then
      if name = ".." then walk t l.dropLast names
      else if nameLimit < name.utf8ByteSize then .error .nameTooLong
      else if (t.get? (l ++ [name])).isSome then walk t (l ++ [name]) names
      else .error .notFound
    else .error .notDirectory

/-- The location that a path name leads to, seen from a directory. -/
def follow (t : FileTree) (cwd : Location) (p : Pathname) : Except SystemFault Location :=
  match p.fault? with
  | some fault => .error fault
  | none => t.walk (if 0 < p.slashes then [] else cwd) p.parts

/-- What stands at a path name. Nothing does where a directory on the way is missing or the path name
has a null character; names that are too long are an error. -/
def entryAt? (t : FileTree) (cwd : Location) (p : Pathname) : Except SystemError (Option Entry) :=
  match t.follow cwd p with
  | .ok l => .ok (t.get? l)
  | .error .nameTooLong => .error ⟨.nameTooLong, p.text⟩
  | .error _ => .ok none

/-- Does the path name lead to a directory? -/
def isDirectory (t : FileTree) (cwd : Location) (p : Pathname) : Except SystemError Bool :=
  (t.entryAt? cwd p).map fun e => e matches some .directory

/-- The content and the time of the file at a location. -/
def file? (t : FileTree) (l : Location) : Option (List UInt8 × Stamp) :=
  match t.get? l with
  | some (.file content stamp) => some (content, stamp)
  | _ => none

/-- The content of a file. -/
def readBytes (t : FileTree) (cwd : Location) (p : Pathname) :
    Except SystemError (List UInt8) :=
  match t.follow cwd p with
  | .error fault => .error ⟨fault, p.text⟩
  | .ok l =>
    match t.get? l with
    | some (.file content _) => .ok content
    | some .directory => .error ⟨.isDirectory, p.text⟩
    | none => .error ⟨.notFound, p.text⟩

/-- The text in a file, with line feeds at the ends of lines. -/
def readText (t : FileTree) (cwd : Location) (p : Pathname) : Except ReadError (List Char) := do
  let bytes ← (t.readBytes cwd p).mapError .system
  let cs ← (Utf8.decode bytes).mapError .encoding
  return Utf8.unifyNewlines cs

/-- The names that lead from a location to the files below it, in no particular order. -/
def namesBelow (t : FileTree) (l : Location) : List (List String) :=
  t.entries.filterMap fun (k, e) =>
    match e with
    | .file _ _ => if l.isPrefixOf k && l.length < k.length then some (k.drop l.length) else none
    | .directory => none

/-- Does one list of names come before another one or is it the same? -/
def namesLE (a b : List String) : Bool := !decide (b < a)

/-- The names that lead from a location to the files below it, in the order of the names. -/
def filesBelow (t : FileTree) (l : Location) : List (List String) :=
  (t.namesBelow l).mergeSort namesLE

/-! ### Changing -/

/-- Puts an entry at a location: in the place of the one that is there, or at the end. -/
def putEntry (l : Location) (e : Entry) : List (Location × Entry) → List (Location × Entry)
  | [] => [(l, e)]
  | (k, old) :: rest => if k = l then (k, e) :: rest else (k, old) :: putEntry l e rest

/-- Puts an entry at a location. -/
def put (t : FileTree) (l : Location) (e : Entry) : FileTree :=
  { t with entries := putEntry l e t.entries }

/-- The place of the last name of a path name: the location of the directory around it, and the
name. There is none for path names that end with double dots or have no names. -/
def target (t : FileTree) (cwd : Location) (p : Pathname) :
    Except SystemFault (Option Location) :=
  match p.parts.getLast? with
  | none => .ok none
  | some name =>
    if name = ".." then (t.follow cwd p).map fun _ => none
    else do
      if let some fault := p.fault? then throw fault
      let around ← t.follow cwd p.parent
      if !t.hasDirectory around then throw .notDirectory
      if nameLimit < name.utf8ByteSize then throw .nameTooLong
      return some (around ++ [name])

/-- Makes one directory where nothing is. -/
def makeDirectory (t : FileTree) (cwd : Location) (p : Pathname) : Except SystemFault FileTree := do
  match ← t.target cwd p with
  | none => throw .exists
  | some l => if (t.get? l).isSome then throw .exists else return t.put l .directory

/-- Makes the directory of a path name unless it is there. -/
def ensureDirectory (t : FileTree) (cwd : Location) (p : Pathname) :
    FileTree × Except SystemError Unit :=
  match t.makeDirectory cwd p with
  | .ok t' => (t', .ok ())
  | .error fault =>
    (t, match t.isDirectory cwd p with
      | .ok true => .ok ()
      | _ => .error ⟨fault, p.text⟩)

/-- Makes the directory of the first `count` names of a path name unless it is there, after the ones
around it that are missing. The tree is the one that is left also if that fails. -/
def makeDirectories (cwd : Location) (p : Pathname) : (count : Nat) → FileTree →
    FileTree × Except SystemError Unit
  | 0, t => (t, .ok ())
  | count + 1, t =>
    let q : Pathname := { p with parts := p.parts.take (count + 1) }
    match t.makeDirectory cwd q with
    | .error .notFound =>
      match makeDirectories cwd p count t with
      | (t, .ok ()) => t.ensureDirectory cwd q
      | failed => failed
    | _ => t.ensureDirectory cwd q

/-- Writes a file, in the place of an earlier one. The time is the next in the order of changes
unless it is set. -/
def writeFile (t : FileTree) (cwd : Location) (p : Pathname) (content : List UInt8)
    (stamp : Option Stamp := none) : Except SystemError FileTree :=
  let fail (fault : SystemFault) : Except SystemError FileTree := .error ⟨fault, p.text⟩
  match t.target cwd p with
  | .error fault => fail fault
  | .ok none => fail .isDirectory
  | .ok (some l) =>
    match t.get? l with
    | some .directory => fail .isDirectory
    | _ =>
      .ok { t.put l (.file content (stamp.getD (.tick t.ticks))) with ticks := t.ticks + 1 }

/-- Takes away what stands at a location and below it. -/
def remove (t : FileTree) (l : Location) : FileTree :=
  { t with entries := t.entries.filter fun (k, _) => !l.isPrefixOf k }

/-- Takes away what stands below a location. -/
def clear (t : FileTree) (l : Location) : FileTree :=
  { t with entries := t.entries.filter fun (k, _) => !l.isPrefixOf k || k == l }

/-- Takes away what stands at a path name and below it. A directory that is named by dots loses what is
in it and stays. -/
def delete (t : FileTree) (cwd : Location) (p : Pathname) : FileTree × Except SystemError Unit :=
  match t.follow cwd p with
  | .error fault => (t, .error ⟨fault, p.text⟩)
  | .ok l =>
    match p.parts.getLast? with
    | none => (t.clear l, .error ⟨.invalid, p.text⟩)
    | some name =>
      if name = ".." then (t.clear l, .error ⟨.notFound, p.text⟩) else (t.remove l, .ok ())

/-- Writes a file after the directories around it. The tree is the one that is left also if that
fails. -/
def install (t : FileTree) (cwd : Location) (p : Pathname) (content : List UInt8)
    (stamp : Option Stamp := none) : FileTree × Except SystemError Unit :=
  match makeDirectories cwd p.parent p.parent.parts.length t with
  | (t, .ok ()) =>
    match t.writeFile cwd p content stamp with
    | .ok t => (t, .ok ())
    | .error e => (t, .error e)
  | failed => failed

end FileTree

end StyleTokens
