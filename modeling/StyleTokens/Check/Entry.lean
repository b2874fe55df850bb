import StyleTokens.Token.Document

/-!
Tokens as entries by dotted path.

* `TokenEntry`: a dotted path with a value and a type tag;
* `TokenEntry.put`: the entry of a path in the place of an earlier one;
* `TokenEntry.ofFields`: the tokens of a document, in document order.
-/

namespace StyleTokens

/-- A dotted path with a value and a type tag. -/
structure TokenEntry where
  path : String
  value : Json
  tag : Json
  deriving Repr, Inhabited

/-- A key behind the dotted path that leads to it. -/
def dottedKey (path key : String) : String := if path = "" then key else path ++ "." ++ key

namespace TokenEntry

/-- Puts an entry in the place of the one with its path, or at the end. -/
def put (entry : TokenEntry) : List TokenEntry → List TokenEntry
  | [] => [entry]
  | r :: rest => if r.path = entry.path then entry :: rest else r :: put entry rest

/-- The entries with later ones put over earlier ones. -/
def merge (entries later : List TokenEntry) : List TokenEntry :=
  later.foldl (fun acc r => put r acc) entries

mutual
/-- The tokens at a key with its value; a path may occur twice. -/
def visitAt (path key : String) : Json → List TokenEntry
  | .obj fields =>
    let here := dottedKey path key
    if Fields.declaresValue fields then
      [⟨here, Fields.declared fields "value", Fields.declared fields "type"⟩]
    else visitIn here fields
  | _ => []
/-- The tokens below an object; a path may occur twice. -/
def visitIn (path : String) : List (String × Json) → List TokenEntry
  | [] => []
  | (key, x) :: rest => visitAt path key x ++ visitIn path rest
end

/-- The tokens of a document below a path. Metadata objects are looked into. -/
def ofFields (path : String) (fields : Fields) : List TokenEntry := merge [] (visitIn path fields)

/-- The entry of a path. -/
def find? (entries : List TokenEntry) (path : String) : Option TokenEntry :=
  List.find? (fun r => r.path == path) entries

end TokenEntry

end StyleTokens
