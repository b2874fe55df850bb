import Std.Time.DateTime
import StyleTokens.Build.Bundled
import StyleTokens.CommandLine.Run

/-!
The program.

Files are read into a tree, a command runs on the tree, and what it changed is written back.

* `presentMoment`: the clock;
* `readBelow`, `readPlaces`: the files of directories as a tree;
* `writeChanges`: the files that differ between two trees;
* `openSession`, `runInvocation`: a session of the current directory, and a command in it.
-/

namespace StyleTokens

/-! ### Clock -/

/-- The present moment in universal time. -/
def presentMoment : IO Moment := do
  let stamp ← Std.Time.Timestamp.now
  let t := Std.Time.PlainDateTime.ofWallTime
    (Std.Time.WallTime.ofNanoseconds stamp.toNanosecondsSinceUnixEpoch)
  match Moment.ofFields [t.year, t.month.val, t.day.val, t.hour.val, t.minute.val, t.second.val,
      t.nanosecond.val / 1000] (some 0) with
  | .ok m => return m
  | .error e => throw (IO.userError e.message)

/-! ### Files -/

/-- Puts what stands in a directory, and below it, on a tree. Links and what cannot be read are left
out. -/
partial def readBelow (l : Location) (tree : FileTree) (e : IO.FS.DirEntry) : IO FileTree := do
  let here := l ++ [e.fileName]
  let add (x : Entry) : FileTree := { tree with entries := (here, x) :: tree.entries }
  try
    let data ← e.path.symlinkMetadata
    match data.type with
    | .dir => (← e.path.readDir).foldlM (readBelow here) (add .directory)
    | .file =>
      let content ← IO.FS.readBinFile e.path
      return add (.file content.toList (.set data.modified.sec))
    | _ => return tree
  catch _ => return tree

/-- Puts the directories on the way to a location on a tree. -/
def addWay (tree : FileTree) (l : Location) : FileTree :=
  (List.range l.length).foldl (fun t n => t.put (l.take (n + 1)) .directory) tree

/-- Puts a directory with all that stands below it on a tree; without one the tree stays. -/
def readPlace (tree : FileTree) (l : Location) : IO FileTree := do
  try
    let children ← (← IO.FS.realPath l.text).readDir
    children.foldlM (readBelow l) (addWay tree l)
  catch _ => return tree

/-- The directories of a list on a tree. What lies below another one of the list is read once. -/
def readPlaces (tree : FileTree) (places : List Location) : IO FileTree :=
  let outer := places.filter fun l => !places.any fun k => k.contains l && k.length < l.length
  outer.eraseDups.foldlM readPlace tree

/-- Writes the directories and files of a tree that an earlier one does not have. -/
def writeChanges (before after : FileTree) : IO Unit :=
  after.entries.forM fun (l, e) => do
    match e with
    | .directory => if !before.hasDirectory l then IO.FS.createDirAll l.text
    | .file content _ =>
      if ((before.file? l).map (·.1)) != some content then
        IO.FS.writeBinFile l.text content.toByteArray

/-! ### Sessions -/

/-- The path name that an option is given, if any. -/
def OptionValue.pathnames : OptionValue → List Pathname
  | .text s => [Pathname.read s]
  | .nothing => []

/-- The path names of the directories that a command works on. -/
def Command.directories : Command → List Pathname
  | .build config root _ =>
    root.pathnames ++ (config.toList.flatMap OptionValue.pathnames).map Pathname.parent
  | .compareDirectories baseline tokens => Pathname.read baseline :: tokens.pathnames
  | .checkKeys tokens => tokens.pathnames
  | .checkTokens tokens => tokens.pathnames

/-- The variables that commands look at. -/
def knownVariables : List String := "HOME" :: topicsVariable :: Workspace.dataVariables

/-- The variables of the environment that are set. -/
def readEnvironment : IO Environment :=
  knownVariables.filterMapM fun name => do return (← IO.getEnv name).map fun v => (name, v)

/-- A session of the current directory. The plan that comes with the program stands in a
directory `data` beside it, unless there is another one. -/
def openSession (command : Command) : IO Session := do
  let cwd := (Pathname.read (← IO.currentDir).toString).resolve []
  let place := Pathname.read (← IO.appPath).toString
  let environment ← readEnvironment
  let named := (Workspace.namedDirectory? environment none).toList
  let data := place.parent.join (Pathname.read "data")
  let tree ← readPlaces (addWay {} cwd) ((data :: named ++ command.directories).map (·.resolve cwd))
  let file := data.join (Pathname.read "platforms.json")
  let tree := if (tree.file? (file.resolve [])).isSome then tree
    else (tree.install [] file (Utf8.encode bundledPlan.written)).1
  return { workspace := ⟨tree, cwd⟩, environment, place }

/-- Runs a command, prints what it prints, writes what it changed, and gives its exit code. -/
def runInvocation (i : Invocation) : IO UInt32 := do
  let session ← openSession i.command
  let now ← presentMoment
  let r := session.run now i.command
  writeChanges session.workspace.tree r.session.workspace.tree
  IO.print r.printed
  match r.finish? now i.debug, r.outcome with
  | some (code, text), _ =>
    IO.eprint text
    return code.toUInt32
  | none, .error e =>
    IO.eprintln (r.reportText now i.debug ++ e.message)
    return 1
  | none, .ok _ => return 0

/-- Runs the program on its arguments. -/
def runProgram (args : List String) : IO UInt32 := do
  match Invocation.read args with
  | .ok i => runInvocation i
  | .error .help =>
    IO.println ("usage: " ++ Invocation.program ++ " [-h] [--debug] (" ++
      " | ".intercalate Invocation.commandNames ++ ") ...")
    return 0
  | .error stop =>
    IO.eprintln stop.message
    return 2

end StyleTokens

def main (args : List String) : IO UInt32 := StyleTokens.runProgram args
