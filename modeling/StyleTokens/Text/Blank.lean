/-!
White space.

* `isBlank`: the white space of every script;
* `trim`: a text without the characters of a class at its two ends;
* `strip`: a text without white space at its two ends.
-/

namespace StyleTokens.Text

/-- Is the character white space? The class has tab to carriage return, the four separators
from U+001C, the space, the next-line mark and the spaces and line separators beyond ASCII. -/
def isBlank (c : Char) : Bool :=
  let n := c.toNat
  (0x09 ≤ n && n ≤ 0x0D) || (0x1C ≤ n && n ≤ 0x20) || n == 0x85 || n == 0xA0 || n == 0x1680 ||
    (0x2000 ≤ n && n ≤ 0x200A) || n == 0x2028 || n == 0x2029 || n == 0x202F || n == 0x205F ||
    n == 0x3000

/-- The text without the leading and the trailing characters of class `p`. -/
def trim (p : Char → Bool) (cs : List Char) : List Char :=
  ((cs.dropWhile p).reverse.dropWhile p).reverse

/-- The text without white space at its ends. -/
def strip (cs : List Char) : List Char := trim isBlank cs

@[simp] theorem trim_nil (p : Char → Bool) : trim p [] = [] := rfl

/-- Trimming removes nothing from a text whose two end characters are not of the class. -/
theorem trim_eq_self {p : Char → Bool} {cs : List Char}
    (hhead : ∀ c ∈ cs.head?, p c = false) (hlast : ∀ c ∈ cs.getLast?, p c = false) :
    trim p cs = cs := by
  have keep : ∀ {l : List Char}, (∀ c ∈ l.head?, p c = false) → l.dropWhile p = l := by
    intro l h
    cases l with
    | nil => rfl
    | cons c r => simp [h c (by simp)]
  unfold trim
  rw [keep hhead, keep (by simpa using hlast), List.reverse_reverse]

/-- A string without white space at its ends. -/
def stripped (s : String) : String := String.ofList (strip s.toList)

end StyleTokens.Text
