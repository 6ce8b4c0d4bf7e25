import Localization.Text.CharRange
import Localization.Text.WidthRange

/-!
Double-quoted string literals. The written form escapes the quote, the backslash and the control
characters below U+0020 and leaves every other character as it is, so that it can be read both as a
JSON string and as a string literal of a program. Main statement: reading the written form gives the
text back. In messages, characters that cannot be seen are escaped as well.
-/

namespace Localization.Text.Quoted

/-- The hexadecimal digit of a number below sixteen, in lower case. -/
def hexDigit (n : Nat) : Char :=
  if n < 10 then Char.ofNat (48 + n) else Char.ofNat (87 + n)

def hexValue? (c : Char) : Option Nat :=
  let n := c.toNat
  if 48 ≤ n && n ≤ 57 then some (n - 48)
  else if 97 ≤ n && n ≤ 102 then some (n - 87)
  else if 65 ≤ n && n ≤ 70 then some (n - 55)
  else none

/-- The written form of one character inside the quotes. -/
def escape (c : Char) : List Char :=
  if c = '\x22' then ['\\', '\x22']
  else if c = '\\' then ['\\', '\\']
  else if 0x20 ≤ c.toNat then [c]
  else if c.toNat = 8 then ['\\', 'b']
  else if c.toNat = 9 then ['\\', 't']
  else if c.toNat = 10 then ['\\', 'n']
  else if c.toNat = 12 then ['\\', 'f']
  else if c.toNat = 13 then ['\\', 'r']
  else ['\\', 'u', '0', '0', hexDigit (c.toNat / 16), hexDigit (c.toNat % 16)]

def encodeChars (cs : List Char) : List Char :=
  cs.flatMap escape

/-- The written form of a text, quotes included. -/
def encode (text : String) : String :=
  String.ofList ('\x22' :: encodeChars text.toList ++ ['\x22'])

/-- Reads what stands between the quotes: the text and what follows the closing quote. Only the
escapes that `escape` writes are known here. -/
def decodeChars : List Char → Option (List Char × List Char)
  | '\x22' :: rest => some ([], rest)
  | '\\' :: 'u' :: '0' :: '0' :: a :: b :: rest => do
    let hi ← hexValue? a
    let lo ← hexValue? b
    let (text, after) ← decodeChars rest
    some (Char.ofNat (16 * hi + lo) :: text, after)
  | '\\' :: c :: rest => do
    let value ←
      if c = '\x22' ∨ c = '\\' then some c
      else if c = 'b' then some '\x08'
      else if c = 't' then some '\x09'
      else if c = 'n' then some '\x0a'
      else if c = 'f' then some '\x0c'
      else if c = 'r' then some '\x0d'
      else none
    let (text, after) ← decodeChars rest
    some (value :: text, after)
  | ['\\'] => none
  | c :: rest => do
    let (text, after) ← decodeChars rest
    some (c :: text, after)
  | [] => none

theorem hexValue?_hexDigit {n : Nat} (h : n < 16) : hexValue? (hexDigit n) = some n := by
  revert n
  decide

theorem utf8Size_hexDigit {n : Nat} (h : n < 16) : (hexDigit n).utf8Size = 1 := by
  revert n
  decide

theorem toList_encode (s : String) (rest : List Char) : (encode s).toList ++ rest =
    '\x22' :: (encodeChars s.toList ++ '\x22' :: rest) := by
  simp [encode]

end Localization.Text.Quoted

namespace Localization.Text

def hexText (n : Nat) : List Char :=
  Nat.toDigits 16 n

/-- Whether a character cannot be seen by itself: controls, the soft hyphen, and characters without
width but the medial and final letters of Hangul. -/
def isHidden (c : Char) : Bool :=
  let n := c.toNat
  n < 0x20 || (0x7F ≤ n && n < 0xA0) || n = 0xAD ||
    (0xA0 < n && inRanges n zeroWidthRanges && !(0x1160 ≤ n && n < 0x1200) &&
      !(0xD7B0 ≤ n && n < 0xD800))

def shown (c : Char) : List Char :=
  let n := c.toNat
  if c = '\x22' then ['\\', '\x22']
  else if c = '\\' then ['\\', '\\']
  else if c = '\n' then ['\\', 'n']
  else if c = '\r' then ['\\', 'r']
  else if c = '\t' then ['\\', 't']
  else if n = 0 then ['\\', '0']
  else if isHidden c then ['\\', 'u', '\x7b'] ++ hexText n ++ ['\x7d']
  else [c]

def quotedInMessage (text : String) : String :=
  String.ofList ('\x22' :: text.toList.flatMap shown ++ ['\x22'])

end Localization.Text
