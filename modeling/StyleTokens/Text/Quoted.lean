import StyleTokens.Text.Hex
import StyleTokens.Text.Printable

/-!
Text as it is shown inside messages.

* `quoted`: a text between quote marks, with escapes for what cannot be shown.
-/

namespace StyleTokens.Text

/-- The quote mark for a text: the single one, unless the text holds it and no double one. -/
def quoteMark (cs : List Char) : Char :=
  if '\'' ∈ cs ∧ '"' ∉ cs then '"' else '\''

/-- How a character is shown between quote marks: the mark and the backslash behind a backslash,
the usual short forms of tab, line feed and carriage return, and the code point of all else that
cannot be shown, in the least of two, four or eight digits. -/
def shownChar (mark c : Char) : List Char :=
  if c = mark ∨ c = '\\' then ['\\', c]
  else if c = '\t' then ['\\', 't']
  else if c = '\n' then ['\\', 'n']
  else if c = '\r' then ['\\', 'r']
  else if isPrintable c then [c]
  else if c.toNat < 0x100 then ['\\', 'x'] ++ hexDigits 2 c.toNat
  else if c.toNat < 0x10000 then ['\\', 'u'] ++ hexDigits 4 c.toNat
  else ['\\', 'U'] ++ hexDigits 8 c.toNat

/-- The text between quote marks, as messages show it. -/
def quotedChars (cs : List Char) : List Char :=
  let mark := quoteMark cs
  mark :: cs.flatMap (shownChar mark) ++ [mark]

/-- The string between quote marks, as messages show it. -/
def quoted (s : String) : String := String.ofList (quotedChars s.toList)

end StyleTokens.Text
