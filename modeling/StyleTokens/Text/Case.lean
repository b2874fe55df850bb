import StyleTokens.Text.CaseTable

/-!
Letter case of every script.

* `isUpper`: does a character count as an upper case letter?
* `lower`, `upper`: a text in one case, by the full mappings, so that the length may change;
* `lower` writes a sigma at the end of a word in its final form.
-/

namespace StyleTokens.Text

/-- Is the character an upper case letter? -/
def isUpper (c : Char) : Bool :=
  if c.toNat < 0x80 then c.isUpper
  else upperRuns.any fun (lo, hi, step) => onRun lo hi step c.toNat

/-- Has the character a case, for the rule of the final sigma? -/
def isCased (c : Char) : Bool :=
  if c.toNat < 0x80 then c.isAlpha
  else casedRuns.any fun (lo, hi, step) => onRun lo hi step c.toNat

/-- Is the character skipped when the end of a word is looked for? -/
def isCaseIgnorable (c : Char) : Bool :=
  if c.toNat < 0x80 then [0x27, 0x2E, 0x3A, 0x5E, 0x60].contains c.toNat
  else caseIgnorableRuns.any fun (lo, hi, step) => onRun lo hi step c.toNat

/-- The image of a letter under a table of shifts; other characters stay. -/
def shifted (table : List (Nat × Nat × Nat × Int)) (c : Char) : Char :=
  match table.find? fun (lo, hi, step, _) => onRun lo hi step c.toNat with
  | some (_, _, _, by_) => Char.ofNat (c.toNat + by_).toNat
  | none => c

/-- A letter in lower case, whatever stands around it. -/
def lowerChar (c : Char) : List Char :=
  if c.toNat < 0x80 then [c.toLower]
  else if c.toNat = 0x130 then ['i', Char.ofNat 0x307]
  else [shifted lowerShifts c]

/-- A letter in upper case. -/
def upperChar (c : Char) : List Char :=
  if c.toNat < 0x80 then [c.toUpper]
  else match upperExpansions.lookup c.toNat with
    | some codes => codes.map Char.ofNat
    | none => [shifted upperShifts c]

/-- Does a word end between the two texts? The first is reversed; marks without case that stand
inside words are looked through. -/
def endsWord (before after : List Char) : Bool :=
  ((before.dropWhile isCaseIgnorable).head?.any isCased) &&
    !((after.dropWhile isCaseIgnorable).head?.any isCased)

/-- A text in lower case, given the reversed text before it. -/
def lowerAfter (before : List Char) : List Char → List Char
  | [] => []
  | c :: cs =>
    (if c.toNat = 0x3A3 then [Char.ofNat (if endsWord before cs then 0x3C2 else 0x3C3)]
      else lowerChar c) ++ lowerAfter (c :: before) cs

/-- A text in lower case. -/
def lower (cs : List Char) : List Char := lowerAfter [] cs

/-- A text in upper case. -/
def upper (cs : List Char) : List Char := cs.flatMap upperChar

end StyleTokens.Text
