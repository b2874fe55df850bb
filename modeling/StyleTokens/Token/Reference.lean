import StyleTokens.Json.Basic
import StyleTokens.Text.Blank

/-!
References inside text.

A reference is a name between braces, `{name}`; the name is not empty and holds no brace.

* `Reference.Piece`: a character or a reference;
* `Reference.pieces`: a text as pieces, where a brace that does not belong to a reference is a
  character;
* `Reference.whole?`: the name in a text that is one reference and white space;
* `Json.references`: the names of all references inside a value.
-/

namespace StyleTokens

namespace Reference

/-- A part of a text. -/
inductive Piece where
  | char (c : Char)
  | reference (name : List Char)
  deriving DecidableEq, Repr

/-- The characters as pieces. -/
def chars (cs : List Char) : List Piece := cs.map .char

/-- The pieces of a text, given the reversed text after an opening brace that may begin a
reference. -/
def scan : (opened : Option (List Char)) → List Char → List Piece
  | none, [] => []
  | some name, [] => .char '{' :: chars name.reverse
  | none, c :: cs => if c = '{' then scan (some []) cs else .char c :: scan none cs
  | some name, c :: cs =>
    if c = '{' then .char '{' :: chars name.reverse ++ scan (some []) cs
    else if c = '}' then
      if name = [] then .char '{' :: .char '}' :: scan none cs
      else .reference name.reverse :: scan none cs
    else scan (some (c :: name)) cs

/-- The pieces of a text. -/
def pieces (cs : List Char) : List Piece := scan none cs

/-- The text of a piece. -/
def Piece.text : Piece → List Char
  | .char c => [c]
  | .reference name => '{' :: name ++ ['}']

/-- The name in a text that is one reference and white space around it. -/
def whole? (cs : List Char) : Option (List Char) :=
  match pieces (Text.strip cs) with
  | [.reference name] => some name
  | _ => none

/-- The names of the references of a text, without white space around them. -/
def names (cs : List Char) : List (List Char) :=
  (pieces cs).filterMap fun
    | .reference name => some (Text.strip name)
    | .char _ => none

/-- The pieces of a text make it up. -/
theorem scan_text (opened : Option (List Char)) (cs : List Char) :
    (scan opened cs).flatMap Piece.text
      = (match opened with | none => [] | some name => '{' :: name.reverse) ++ cs := by
  have hchars : ∀ l : List Char, (chars l).flatMap Piece.text = l := by
    intro l
    induction l with
    | nil => rfl
    | cons c r ih => simpa [chars, Piece.text] using ih
  induction cs generalizing opened with
  | nil => cases opened <;> simp [scan, hchars, Piece.text]
  | cons c cs ih =>
    cases opened with
    | none =>
      unfold scan
      split
      · next h => simp [ih, h]
      · simp [ih, Piece.text]
    | some name =>
      unfold scan
      split
      · next h => simp [ih, h, hchars, Piece.text]
      · split
        · next h =>
          split
          · next hn => simp [ih, h, hn, Piece.text]
          · simp [ih, h, Piece.text]
        · simp [ih]

/-- The pieces of a text make it up. -/
theorem pieces_text (cs : List Char) : (pieces cs).flatMap Piece.text = cs := by
  simpa [pieces] using scan_text none cs

end Reference

namespace Json

mutual
/-- The names of all references inside a value, in order. -/
def references : Json → List String
  | .str s => (Reference.names s.toList).map String.ofList
  | .arr items => referencesOfItems items
  | .obj fields => referencesOfFields fields
  | _ => []
/-- The names of all references inside the items of a list. -/
def referencesOfItems : List Json → List String
  | [] => []
  | x :: xs => references x ++ referencesOfItems xs
/-- The names of all references inside the entries of an object. -/
def referencesOfFields : List (String × Json) → List String
  | [] => []
  | (_, x) :: xs => references x ++ referencesOfFields xs
end

end Json

end StyleTokens
