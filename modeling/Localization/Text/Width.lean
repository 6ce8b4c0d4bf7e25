import Localization.Text.CharRange
import Localization.Text.WidthRange

/-!
Display width: how many columns a character or a text takes. A source column counts a tab as four and
a control character as none; in a listing a control character takes one column and an emoji sequence
takes two.
-/

namespace Localization.Text

/-- The columns of a character that is not a control character. -/
def glyphWidth (c : Char) : Nat :=
  let n := c.toNat
  if n < 0x7F then 1
  else if inRanges n zeroWidthRanges then 0
  else if inRanges n wideRanges then 2
  else 1

/-- Control characters: C0, delete and C1. -/
def isControl (c : Char) : Bool :=
  c.toNat < 0x20 || (0x7F ≤ c.toNat && c.toNat < 0xA0)

/-- The columns a character takes in a source line. A character that is written with two 16-bit units
takes one column more than its width. -/
def columnWidth (c : Char) : Nat :=
  if c = '\t' then 4
  else if isControl c then 0
  else if c.toNat < 0x10000 then glyphWidth c
  else glyphWidth c + 1

def columns : List Char → Nat
  | [] => 0
  | c :: rest => columnWidth c + columns rest

def isEmoji (c : Char) : Bool :=
  let n := c.toNat
  if n < 0x80 then n == 35 || n == 42 || (48 ≤ n && n ≤ 57) else inRanges n emojiRanges

/-- What a character joins on its right while a text is measured from its end. -/
inductive Joining where
  /-- Nothing that matters. -/
  | none
  /-- A line feed. -/
  | lineFeed
  /-- The selector that asks for the emoji form of the character before it. -/
  | emojiForm
  /-- A skin tone. -/
  | modifier
  /-- A character shown as an emoji. -/
  | emoji
  /-- A joiner in front of a character shown as an emoji. -/
  | joinedEmoji
  deriving DecidableEq, Repr

/-- The columns of a character in front of what `next` says, and what it says to the one before. -/
def joiningWidth (c : Char) (next : Joining) : Nat × Joining :=
  let n := c.toNat
  match next with
  | .lineFeed => if c = '\r' then (0, .none) else free c
  | .emojiForm => if isEmoji c then (2, .emoji) else free c
  | .modifier => if inRanges n emojiModifierBaseRanges then (0, .emoji) else free c
  | .emoji => if n = 0x200D then (0, .joinedEmoji) else free c
  | .joinedEmoji =>
    if n = 0xFE0F then (0, .joinedEmoji)
    else if 0x1F3FB ≤ n && n ≤ 0x1F3FF then (0, .joinedEmoji)
    else if isEmoji c && 0x80 ≤ n then (0, .emoji)
    else free c
  | .none => free c
where
  /-- The columns of a character that joins nothing on its right. -/
  free (c : Char) : Nat × Joining :=
    let n := c.toNat
    if c = '\n' then (1, .lineFeed)
    else if isControl c then (1, .none)
    else if n = 0xFE0F then (0, .emojiForm)
    else if 0x1F3FB ≤ n && n ≤ 0x1F3FF then (2, .modifier)
    else
      let width := glyphWidth c
      (width, if width = 2 && 0x80 ≤ n && isEmoji c then .emoji else .none)

/-- Measures a text from its end. -/
def measure : List Char → Nat × Joining
  | [] => (0, .none)
  | c :: rest =>
    let (total, next) := measure rest
    let (width, joining) := joiningWidth c next
    (total + width, joining)

/-- The columns of a text in a listing. -/
def displayWidth (text : String) : Nat :=
  (measure text.toList).1

end Localization.Text
