import StyleTokens.Output.Error
import StyleTokens.Output.Literal

/-!
Names of tokens arranged by their paths.

* `NameTree`: a name, or a group of trees under keys in order;
* `NameTree.insert`: puts a name at a path, unless the path runs through a name or ends at a group;
* `NameTree.ofTokens`: the names of all tokens of a list;
* `NameTree.format`: the tree as a nested object literal.
-/

namespace StyleTokens

/-- A name, or a group of trees under keys. -/
inductive NameTree where
  | leaf (name : String)
  | group (entries : List (String × NameTree))
  deriving Repr, Inhabited

namespace NameTree

/-- Gives a key a tree: in the place of the key if it is there, at the end otherwise. -/
def put (key : String) (tree : NameTree) : List (String × NameTree) → List (String × NameTree)
  | [] => [(key, tree)]
  | (k, t) :: rest => if k = key then (k, tree) :: rest else (k, t) :: put key tree rest

/-- Puts a name at a path below a group that stands at the path `before`. The path must not run
through a name or end at a group. -/
def insert (name : String) (before : Path) :
    Path → List (String × NameTree) → Except OutputError (List (String × NameTree))
  | [], _ => .error .emptyPath
  | [key], entries =>
    match entries.lookup key with
    | some (.group _) => .error (.tokenAndGroup (before ++ [key]))
    | _ => .ok (put key (.leaf name) entries)
  | key :: path, entries =>
    match entries.lookup key with
    | some (.leaf _) => .error (.tokenAndGroup (before ++ [key]))
    | some (.group inner) => do
      return put key (.group (← insert name (before ++ [key]) path inner)) entries
    | none => do
      return put key (.group (← insert name (before ++ [key]) path [])) entries

/-- The names of tokens at their paths. -/
def entriesOf (tokens : List Token) : Except OutputError (List (String × NameTree)) :=
  tokens.foldlM (fun entries t => insert t.name [] t.path entries) []

/-- The names of tokens at their paths, as one group. -/
def ofTokens (tokens : List Token) : Except OutputError NameTree := do
  return .group (← entriesOf tokens)

/-- Does a key need marks: does it begin with a digit or hold a hyphen? -/
def needsMarks (key : String) : Bool :=
  (key.toList.head?.any fun c => '0' ≤ c && c ≤ '9') || key.toList.contains '-'

/-- A key of an object literal. -/
def keyText (key : String) : String := if needsMarks key then Output.inSingleMarks key else key

/-- Blanks at the front of a line. -/
def indentation (depth : Nat) : String := String.ofList (List.replicate (2 * depth) ' ')

mutual
/-- A tree as an expression: a name as it is, a group as an object literal with an entry on every
line. -/
def format (depth : Nat) : NameTree → String
  | .leaf name => name
  | .group [] => "\x7b\x7d"
  | .group (entry :: rest) =>
    "\x7b\n" ++ ",\n".intercalate (formatEntries depth (entry :: rest)) ++ "\n" ++
      indentation depth ++ "\x7d"
/-- The lines of the entries of a group. -/
def formatEntries (depth : Nat) : List (String × NameTree) → List String
  | [] => []
  | (key, tree) :: rest =>
    (indentation (depth + 1) ++ keyText key ++ ": " ++ format (depth + 1) tree) ::
      formatEntries depth rest
end

end NameTree

end StyleTokens
