import StyleTokens.Text.Segment

/-!
Names of files.

* `Pathname`: the slashes at the front and the names that lead to a file; names that are empty or a
  single dot are left out, and double dots are kept;
* `Pathname.read`, `Pathname.text`: path names from text and as text;
* `Pathname.join`, `Pathname.parent`, `Pathname.name`, `Pathname.relativeTo?`;
* `Location`: the names that lead from the root to a place, without any dots;
* `Pathname.resolve`: the location of a path name, with double dots taken as steps back.
-/

namespace StyleTokens

/-- The name of a file. Two slashes at the front are kept apart from one; more count as one. -/
structure Pathname where
  slashes : Nat
  parts : List String
  deriving DecidableEq, Repr, Inhabited

namespace Pathname

/-- The path name of a text. -/
def read (s : String) : Pathname where
  slashes :=
    let n := (s.toList.takeWhile (· == '/')).length
    if n = 2 then 2 else min n 1
  parts := ((Text.segments '/' s.toList).filter fun part => part ≠ [] ∧ part ≠ ['.']).map
    String.ofList

/-- A path name as text; the one without any name is a dot. -/
def text (p : Pathname) : String :=
  if p.slashes = 0 ∧ p.parts = [] then "."
  else String.ofList (List.replicate p.slashes '/') ++ "/".intercalate p.parts

/-- A path name seen from the directory of another one. -/
def join (p q : Pathname) : Pathname :=
  if 0 < q.slashes then q else { p with parts := p.parts ++ q.parts }

/-- The last name. -/
def name (p : Pathname) : String := p.parts.getLast?.getD ""

/-- The path name without its last name. -/
def parent (p : Pathname) : Pathname := { p with parts := p.parts.dropLast }

/-- What leads from one path name to another one below it. -/
def relativeTo? (p base : Pathname) : Option Pathname :=
  if p.slashes = base.slashes ∧ base.parts.isPrefixOf p.parts then
    some ⟨0, p.parts.drop base.parts.length⟩
  else none

/-- The path name relative to the directory above another one, if it lies there. -/
def display (p root : Pathname) : String :=
  ((p.relativeTo? root.parent).getD p).text

end Pathname

/-- The names that lead from the root to a place. -/
abbrev Location := List String

/-- A location as text. -/
def Location.text (l : Location) : String := "/" ++ "/".intercalate l

/-- The location as a path name. -/
def Location.pathname (l : Location) : Pathname := ⟨1, l⟩

/-- One step from a location: double dots lead back. -/
def Location.step (l : Location) (name : String) : Location :=
  if name = ".." then l.dropLast else l ++ [name]

/-- The location of a path name, seen from a directory. -/
def Pathname.resolve (cwd : Location) (p : Pathname) : Location :=
  p.parts.foldl Location.step (if 0 < p.slashes then [] else cwd)

/-- Are all names of the first location at the front of the second one? -/
def Location.contains (base l : Location) : Bool := base.isPrefixOf l

end StyleTokens
