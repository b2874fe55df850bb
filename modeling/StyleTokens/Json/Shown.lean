import StyleTokens.Json.Writer
import StyleTokens.Text.Quoted

/-!
Values as messages show them.

* `Json.shown`: a value with its strings between quote marks;
* `Json.plain`: the same, but a value that is a string stands for itself.
-/

namespace StyleTokens.Json

mutual
/-- A value with its strings between quote marks. -/
def shownChars : Json → List Char
  | .null => ['N', 'o', 'n', 'e']
  | .bool true => ['T', 'r', 'u', 'e']
  | .bool false => ['F', 'a', 'l', 's', 'e']
  | .int n => intText n
  | .float x => (x.text plainNames).toList
  | .str s => Text.quotedChars s.toList
  | .arr items => '[' :: shownItems items ++ [']']
  | .obj fields => '{' :: shownFields fields ++ ['}']
/-- The items of a list. -/
def shownItems : List Json → List Char
  | [] => []
  | [x] => shownChars x
  | x :: xs => shownChars x ++ entrySeparator ++ shownItems xs
/-- The entries of an object. -/
def shownFields : List (String × Json) → List Char
  | [] => []
  | [(k, x)] => Text.quotedChars k.toList ++ [':', ' '] ++ shownChars x
  | (k, x) :: xs =>
    Text.quotedChars k.toList ++ [':', ' '] ++ shownChars x ++ entrySeparator ++ shownFields xs
end

/-- A value with its strings between quote marks. -/
def shown (v : Json) : String := String.ofList v.shownChars

/-- A value as text; a string stands for itself. -/
def plain : Json → String
  | .str s => s
  | v => v.shown

end StyleTokens.Json
