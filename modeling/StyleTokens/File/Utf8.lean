import StyleTokens.Text.Hex

/-!
Text as bytes.

* `Utf8.encode`: the bytes of a text;
* `Utf8.decode`: the text of bytes, or the first bytes that are none;
* `Utf8.shown`: bytes as text, with hexadecimal digits for those that are none;
* `Utf8.unifyNewlines`: a text in which every end of a line is a line feed.

Texts are made of Unicode characters, so every text has bytes; half of a surrogate pair, which has
none, is not a character.
-/

namespace StyleTokens

/-- Why bytes are no text. -/
inductive Utf8Reason where
  | invalidStart
  | invalidContinuation
  | unexpectedEnd
  deriving DecidableEq, Repr

/-- Bytes that are no text: where they begin, how many they are, and the first one. -/
structure Utf8Error where
  reason : Utf8Reason
  start : Nat
  count : Nat
  byte : UInt8
  deriving DecidableEq, Repr

namespace Utf8

/-- The words for a reason. -/
def reasonText : Utf8Reason → String
  | .invalidStart => "invalid start byte"
  | .invalidContinuation => "invalid continuation byte"
  | .unexpectedEnd => "unexpected end of data"

/-- The words for an error. -/
def errorMessage (e : Utf8Error) : String :=
  "'utf-8' codec can't decode " ++
    (if e.count = 1 then
      "byte 0x" ++ String.ofList [Nat.digitChar (e.byte.toNat / 16),
        Nat.digitChar (e.byte.toNat % 16)] ++ " in position " ++ toString e.start
    else
      "bytes in position " ++ toString e.start ++ "-" ++ toString (e.start + e.count - 1)) ++
    ": " ++ reasonText e.reason

/-- The bytes of a text. -/
def encode (s : String) : List UInt8 := s.toList.flatMap String.utf8EncodeChar

/-- Is the byte one that can follow the first byte of a character? -/
def isContinuation (b : UInt8) : Bool := 0x80 ≤ b.toNat && b.toNat < 0xC0

/-- Can the second byte follow the first one in a character of three or four bytes? Shorter forms
exist for what lies below, and no character for what lies above. -/
def suits (first second : UInt8) : Bool :=
  let a := first.toNat
  let b := second.toNat
  isContinuation second &&
    (a != 0xE0 || 0xA0 ≤ b) && (a != 0xED || b < 0xA0) &&
    (a != 0xF0 || 0x90 ≤ b) && (a != 0xF4 || b < 0x90)

/-- The six bits of a byte that follows. -/
def low (b : UInt8) : Nat := b.toNat % 0x40

/-- The text of bytes that begin at a position. -/
def decodeFrom (position : Nat) : List UInt8 → Except Utf8Error (List Char)
  | [] => .ok []
  | a :: rest =>
    let fail (reason : Utf8Reason) (count : Nat) : Except Utf8Error (List Char) :=
      .error ⟨reason, position, count, a⟩
    let n := a.toNat
    if n < 0x80 then (decodeFrom (position + 1) rest).map (Char.ofNat n :: ·)
    else if n < 0xC2 then fail .invalidStart 1
    else if n < 0xE0 then
      match rest with
      | b :: rest =>
        if isContinuation b then
          (decodeFrom (position + 2) rest).map (Char.ofNat (n % 0x20 * 0x40 + low b) :: ·)
        else fail .invalidContinuation 1
      | [] => fail .unexpectedEnd 1
    else if n < 0xF0 then
      match rest with
      | b :: c :: rest =>
        if suits a b then
          if isContinuation c then
            (decodeFrom (position + 3) rest).map
              (Char.ofNat ((n % 0x10 * 0x40 + low b) * 0x40 + low c) :: ·)
          else fail .invalidContinuation 2
        else fail .invalidContinuation 1
      | [b] => if suits a b then fail .unexpectedEnd 2 else fail .invalidContinuation 1
      | [] => fail .unexpectedEnd 1
    else if n < 0xF5 then
      match rest with
      | b :: c :: d :: rest =>
        if suits a b then
          if isContinuation c then
            if isContinuation d then
              (decodeFrom (position + 4) rest).map
                (Char.ofNat (((n % 8 * 0x40 + low b) * 0x40 + low c) * 0x40 + low d) :: ·)
            else fail .invalidContinuation 3
          else fail .invalidContinuation 2
        else fail .invalidContinuation 1
      | [b, c] =>
        if suits a b then
          if isContinuation c then fail .unexpectedEnd 3 else fail .invalidContinuation 2
        else fail .invalidContinuation 1
      | [b] => if suits a b then fail .unexpectedEnd 2 else fail .invalidContinuation 1
      | [] => fail .unexpectedEnd 1
    else fail .invalidStart 1

/-- The text of bytes. -/
def decode (bytes : List UInt8) : Except Utf8Error (List Char) := decodeFrom 0 bytes

/-- A byte as text: its hexadecimal digits behind a backslash. -/
def shownByte (b : UInt8) : List Char := '\\' :: 'x' :: Text.hexDigits 2 b.toNat

/-- The text of bytes, with the digits of those that are none. -/
def shown : List UInt8 → List Char
  | [] => []
  | b :: rest =>
    match decode (b :: rest) with
    | .ok cs => cs
    | .error e =>
      let front := (decode ((b :: rest).take e.start)).toOption.getD []
      let middle := ((b :: rest).drop e.start).take e.count
      front ++ middle.flatMap shownByte ++ shown (rest.drop (e.start + e.count - 1))
termination_by bytes => bytes.length
decreasing_by
  simp only [List.length_drop, List.length_cons]
  omega

/-- The text with a line feed for every carriage return, and for one before a line feed together
with it. -/
def unifyNewlines : List Char → List Char
  | [] => []
  | ['\r'] => ['\n']
  | '\r' :: '\n' :: rest => '\n' :: unifyNewlines rest
  | '\r' :: c :: rest => '\n' :: unifyNewlines (c :: rest)
  | c :: rest => c :: unifyNewlines rest

end Utf8

end StyleTokens
