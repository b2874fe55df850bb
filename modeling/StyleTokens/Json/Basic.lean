import StyleTokens.Binary64.Basic

/-!
Values of structured documents.

* `Json`: null, booleans, whole numbers of any size, floating point numbers, strings, lists and
  objects with their keys in order;
* `Fields`: the entries of an object, `Fields.get?` the look-up by key and `Fields.put` the entry
  that keeps the place of a key and takes the new value;
* `Fields.ofPairs`: entries as they are read, where a repeated key keeps its first place and its
  last value;
* `Json.digitLimit`: the most digits of a whole number in a text;
* `Json.kind`, `Json.isNumber`, `Json.isTruthy`: simple classifications;
* `Json.same`: equality that looks through the kinds of numbers and the order of keys.
-/

namespace StyleTokens

/-- A value of a structured document. -/
inductive Json where
  | null
  | bool (value : Bool)
  | int (value : Int)
  | float (value : Binary64)
  | str (value : String)
  | arr (items : List Json)
  | obj (fields : List (String × Json))
  deriving Repr, Inhabited

/-- The entries of an object in order. -/
abbrev Fields := List (String × Json)

namespace Fields

/-- The value of a key. -/
def get? (fields : Fields) (key : String) : Option Json := fields.lookup key

/-- The value of a key, null if the key is missing. -/
def getD (fields : Fields) (key : String) : Json := (fields.get? key).getD .null

/-- Is there an entry of the key? -/
def has (fields : Fields) (key : String) : Bool := (fields.get? key).isSome

/-- Gives a key a value: in the place of the key if it is there, at the end otherwise. -/
def put (key : String) (value : Json) : Fields → Fields
  | [] => [(key, value)]
  | (k, v) :: rest => if k = key then (k, value) :: rest else (k, v) :: put key value rest

/-- The entries with later ones put over earlier ones. -/
def merge (fields later : Fields) : Fields := later.foldl (fun acc (k, v) => put k v acc) fields

/-- The entries of a list of pairs, in which a key may be repeated. -/
def ofPairs (pairs : List (String × Json)) : Fields := merge [] pairs

end Fields

namespace Json

/-- The most digits of a whole number that is read from a text or written to one. -/
def digitLimit : Nat := 4300

/-- The words for a whole number of more digits, with their count where it is known. -/
def longNumberMessage (digits : Option Nat) : String :=
  "Exceeds the limit (" ++ toString digitLimit ++ " digits) for integer string conversion" ++
    (match digits with
      | some n => ": value has " ++ toString n ++ " digits"
      | none => "") ++
    "; use sys.set_int_max_str_digits() to increase the limit"

/-- The kinds of values. -/
inductive Kind where
  | null | bool | int | float | str | arr | obj
  deriving DecidableEq, Repr

/-- The kind of a value. -/
def kind : Json → Kind
  | .null => .null
  | .bool _ => .bool
  | .int _ => .int
  | .float _ => .float
  | .str _ => .str
  | .arr _ => .arr
  | .obj _ => .obj

/-- The name of a kind in messages. -/
def Kind.name : Kind → String
  | .null => "NoneType"
  | .bool => "bool"
  | .int => "int"
  | .float => "float"
  | .str => "str"
  | .arr => "list"
  | .obj => "dict"

/-- Is the value a whole or a floating point number? -/
def isNumber : Json → Bool
  | .int _ => true
  | .float _ => true
  | _ => false

/-- Does the value count as given? Null, false, zero and everything empty do not. -/
def isTruthy : Json → Bool
  | .null => false
  | .bool b => b
  | .int n => n != 0
  | .float x => !x.isZero
  | .str s => s != ""
  | .arr items => !items.isEmpty
  | .obj fields => !fields.isEmpty

/-- The string that a value is. -/
def str? : Json → Option String
  | .str s => some s
  | _ => none

/-- The entries of the object that a value is. -/
def fields? : Json → Option Fields
  | .obj fields => some fields
  | _ => none

/-- Is the value null? -/
def isNull : Json → Bool
  | .null => true
  | _ => false

/-! ### Equality by value -/

/-- The number that a boolean or a number stands for has the given whole value. -/
def hasIntValue (n : Int) : Json → Bool
  | .bool b => n == (if b then 1 else 0)
  | .int m => n == m
  | .float x => x.hasValue n
  | _ => false

mutual
/-- Equality of parts of values: numbers and booleans by their numeric value, objects whatever the
order of their keys; not-a-number is equal to itself. -/
def samePart : Json → Json → Bool
  | .null, .null => true
  | .bool b, other => other.hasIntValue (if b then 1 else 0)
  | .int n, other => other.hasIntValue n
  | .float .nan, .float .nan => true
  | .float x, .float y => x.sameValue y
  | .float x, .int n => x.hasValue n
  | .float x, .bool b => x.hasValue (if b then 1 else 0)
  | .str s, .str t => s == t
  | .arr xs, .arr ys => sameItems xs ys
  | .obj xs, .obj ys => xs.length == ys.length && sameFields xs ys
  | _, _ => false
/-- Equality of lists, item by item. -/
def sameItems : List Json → List Json → Bool
  | [], [] => true
  | x :: xs, y :: ys => samePart x y && sameItems xs ys
  | _, _ => false
/-- Has every entry an equal one under its key? -/
def sameFields : List (String × Json) → List (String × Json) → Bool
  | [], _ => true
  | (k, x) :: xs, ys => (match ys.lookup k with
      | some y => samePart x y
      | none => false) && sameFields xs ys
end

/-- Equality by value. Not-a-number on its own differs from itself. -/
def same : Json → Json → Bool
  | .float .nan, .float .nan => false
  | x, y => samePart x y

@[simp] theorem same_null : same .null .null = true := by simp [same, samePart]

@[simp] theorem same_str (s t : String) : same (.str s) (.str t) = (s == t) := by
  simp [same, samePart]

end Json

/-! ### Entries of objects -/

namespace Fields

@[simp] theorem get?_nil (key : String) : get? [] key = none := rfl

/-- A key has the value that it was given last, and other keys keep theirs. -/
theorem get?_put (fields : Fields) (key : String) (value : Json) (k : String) :
    get? (put key value fields) k = if k = key then some value else get? fields k := by
  induction fields with
  | nil =>
    by_cases hk : k = key
    · simp [put, get?, hk]
    · simp [put, get?, List.lookup_cons, hk, beq_false_of_ne hk]
  | cons entry rest ih =>
    obtain ⟨k', v⟩ := entry
    simp only [get?] at ih ⊢
    unfold put
    split
    · next h =>
      subst h
      by_cases hk : k = k'
      · simp [hk]
      · simp [List.lookup_cons, hk, beq_false_of_ne hk]
    · next h =>
      by_cases hk : k = k'
      · subst hk
        simp [h]
      · simp [List.lookup_cons, ih, beq_false_of_ne hk]

end Fields

end StyleTokens
