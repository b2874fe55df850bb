import StyleTokens.Json.Basic

/-!
Replacing the strings inside a value.

* `Json.traverseStrings`: every string is replaced by the value that an action gives for it, in the
  order of the text; lists and objects keep their length and their keys.
-/

namespace StyleTokens.Json

variable {m : Type → Type} [Monad m]

mutual
/-- The value with every string replaced by what the action gives for it. -/
def traverseStrings (f : String → m Json) : Json → m Json
  | .str s => f s
  | .arr items => do return .arr (← traverseItems f items)
  | .obj fields => do return .obj (← traverseFields f fields)
  | v => pure v
/-- The items with every string replaced. -/
def traverseItems (f : String → m Json) : List Json → m (List Json)
  | [] => pure []
  | x :: xs => do
    let y ← traverseStrings f x
    let ys ← traverseItems f xs
    return y :: ys
/-- The entries with every string replaced; keys stay. -/
def traverseFields (f : String → m Json) : List (String × Json) → m (List (String × Json))
  | [] => pure []
  | (k, x) :: xs => do
    let y ← traverseStrings f x
    let ys ← traverseFields f xs
    return (k, y) :: ys
end

end StyleTokens.Json
