import StyleTokens.Json.Shown

/-!
Values as literals of the target languages.

* `Json.bareText`: a value as bare text;
* `escapeWith`: a text in which some characters are written differently;
* `inDoubleMarks`, `inSingleMarks`: string literals with backslashes;
* `inDoubledMarks`: string literals in which a quote mark is written twice;
* `Json.brightScript`, `Json.typeScript`, `Json.javaScript`: a value as a literal of a language.
-/

namespace StyleTokens

/-- A value as bare text: booleans as words, numbers without a superfluous point, lists and objects
as documents. -/
def Json.bareText (v : Json) : String :=
  match v with
  | .bool true => "true"
  | .bool false => "false"
  | .arr _ => v.written
  | .obj _ => v.written
  | _ => v.numberText?.getD v.plain

namespace Output

/-- A text in which every occurrence of a character is replaced by what stands for it. -/
def escapeWith (image : Char → List Char) (s : String) : List Char := s.toList.flatMap image

/-- A character of a literal with backslashes, given the mark that ends it. -/
def backslashed (mark c : Char) : List Char := if c = '\\' ∨ c = mark then ['\\', c] else [c]

/-- A text between double marks, with backslashes before marks and backslashes. -/
def inDoubleMarks (s : String) : String :=
  String.ofList ('"' :: escapeWith (backslashed '"') s ++ ['"'])

/-- A text between single marks, with backslashes before marks and backslashes. -/
def inSingleMarks (s : String) : String :=
  String.ofList ('\'' :: escapeWith (backslashed '\'') s ++ ['\''])

/-- A character of a literal in which the mark is written twice. -/
def doubledMark (c : Char) : List Char := if c = '"' then ['"', '"'] else [c]

/-- A text between double marks, with marks inside written twice. -/
def inDoubledMarks (s : String) : String :=
  String.ofList ('"' :: escapeWith doubledMark s ++ ['"'])

/-- Is the text already a literal: two marks at its ends and none between them? -/
def isQuotedOnce (cs : List Char) : Bool :=
  match cs with
  | '"' :: rest => rest.getLast? == some '"' && !rest.dropLast.contains '"'
  | _ => false

end Output

/-- A value as a literal: numbers and booleans bare, all else quoted unless it already is. -/
def Json.brightScript (v : Json) : String :=
  match v with
  | .int _ | .float _ | .bool _ => v.bareText
  | _ =>
    if Output.isQuotedOnce v.bareText.toList then v.bareText
    else Output.inDoubledMarks v.bareText

/-- A value as a literal: numbers and booleans bare, lists and objects as documents, all else
between single marks. -/
def Json.typeScript (v : Json) : String :=
  match v with
  | .int _ | .float _ | .bool _ => v.bareText
  | .arr _ | .obj _ => v.written
  | _ => Output.inSingleMarks v.plain

/-- A value as a literal: numbers without a superfluous point, all else as in documents, where null
becomes a string. -/
def Json.javaScript (v : Json) : String :=
  match v with
  | .int _ | .float _ => v.bareText
  | .arr _ | .obj _ | .bool _ => v.written
  | _ => (Json.str v.plain).written

end StyleTokens
