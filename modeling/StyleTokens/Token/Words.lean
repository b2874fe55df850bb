import StyleTokens.Text.Segment

/-!
Names from the words of a path.

* `Words.splitCase`: a blank at every change of case inside a text;
* `wordsOf`: the words of the keys of a path, in lower case;
* `camelName`, `pascalName`, `kebabName`, `snakeName`: the words joined to a name.

Words are runs of ASCII letters and digits. A word ends between a lower case letter or a digit and
an upper case letter, and before the last letter of a run of upper case letters that a lower case
letter follows. The two rules are applied from left to right to stretches that do not overlap.
-/

namespace StyleTokens

namespace Words

/-- Is the character a lower case ASCII letter? -/
def isLower (c : Char) : Bool := 'a' ≤ c && c ≤ 'z'

/-- Is the character an upper case ASCII letter? -/
def isUpper (c : Char) : Bool := 'A' ≤ c && c ≤ 'Z'

/-- Is the character an ASCII digit? -/
def isDigit (c : Char) : Bool := '0' ≤ c && c ≤ '9'

/-- Is the character an ASCII letter or digit? -/
def isWordChar (c : Char) : Bool := isLower c || isUpper c || isDigit c

/-- Does the case rise between the two characters? -/
def rises (a b : Char) : Bool := (isLower a || isDigit a) && isUpper b

/-- Does a new word begin at the second of two upper case letters? -/
def capitalises (a b c : Char) : Bool := isUpper a && isUpper b && isLower c

/-- A blank at every change of case, from left to right. -/
def splitCase : List Char → List Char
  | [] => []
  | [a] => [a]
  | [a, b] => if rises a b then [a, ' ', b] else [a, b]
  | a :: b :: c :: rest =>
    if rises a b then a :: ' ' :: b :: splitCase (c :: rest)
    else if capitalises a b c then a :: ' ' :: b :: c :: splitCase rest
    else a :: splitCase (b :: c :: rest)

/-- The words of a text, in the case they have. -/
def runs (cs : List Char) : List (List Char) :=
  (Text.segmentsBy (fun c => !isWordChar c) (splitCase cs)).filter (· ≠ [])

/-- The words of a text, in lower case. -/
def ofText (cs : List Char) : List (List Char) := (runs cs).map (·.map Char.toLower)

/-- A word with an upper case first letter. -/
def capital : List Char → List Char
  | [] => []
  | c :: cs => c.toUpper :: cs

end Words

/-- The words of the keys of a path, in lower case. -/
def wordsOf (parts : List String) : List (List Char) :=
  parts.flatMap fun part => Words.ofText part.toList

/-- The words joined, each with an upper case first letter but the first. -/
def camelName (parts : List String) : String :=
  match wordsOf parts with
  | [] => ""
  | w :: ws => String.ofList (w ++ ws.flatMap Words.capital)

/-- The words joined, each with an upper case first letter. -/
def pascalName (parts : List String) : String :=
  String.ofList ((wordsOf parts).flatMap Words.capital)

/-- The words with hyphens between them. -/
def kebabName (parts : List String) : String :=
  String.ofList (['-'].intercalate (wordsOf parts))

/-- The words with underscores between them. -/
def snakeName (parts : List String) : String :=
  String.ofList (['_'].intercalate (wordsOf parts))

end StyleTokens
