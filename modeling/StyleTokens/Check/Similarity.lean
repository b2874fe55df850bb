import StyleTokens.Binary64.Shortest

/-!
How alike two names are.

* `editDistance`: the least number of insertions, deletions and replacements of characters that
  turns one text into another, by rows of a table;
* `similarity`: one less the distance divided by the length of the longer text;
* `isSimilar`: is the similarity above seven tenths?
-/

namespace StyleTokens

/-! ### Edit distance -/

/-- The next row of the table, for one more character at the front of the first text. A row holds
the distances of that text to all ends of the second one, the whole text first. -/
def editRow (c : Char) : List Char → List Nat → List Nat
  | d :: ds, here :: next :: row =>
    match editRow c ds (next :: row) with
    | below :: rest =>
      (if c = d then next else 1 + min next (min here below)) :: below :: rest
    | [] => []
  | _, row => row.map (· + 1)

/-- The distances of a text to all ends of another one, the whole text first. -/
def editTable (bs : List Char) : List Char → List Nat
  | [] => (List.range (bs.length + 1)).reverse
  | a :: as => editRow a bs (editTable bs as)

/-- The least number of insertions, deletions and replacements that turns one text into the
other. -/
def editDistance (as bs : List Char) : Nat := (editTable bs as).headD 0

/-! ### Similarity -/

/-- The units of the similarity: one less the quotient of distance and length, each rounded. -/
def similarityUnits (a b : String) : Nat :=
  let length := max a.length b.length
  if length = 0 then Binary64.one
  else
    let distance := editDistance a.toList b.toList
    Binary64.roundUnits (Binary64.one - Binary64.roundUnits (distance * Binary64.one) length) 1

/-- The similarity of two texts: one for equal texts, zero for texts with nothing in common. -/
def similarity (a b : String) : Binary64 := .finite false (similarityUnits a b)

/-- The number nearest to seven tenths, in units. -/
def similarityThreshold : Nat := Binary64.roundUnits (7 * Binary64.one) 10

/-- Are the texts so alike that one may be a new name of the other? -/
def isSimilar (a b : String) : Bool := similarityThreshold < similarityUnits a b

end StyleTokens
