import Localization.Text.Bytes
import Localization.Text.Width

/-!
Lines and columns of a source. A line ends at a line feed, at a carriage return, or at both together;
columns count display width, and a byte order mark is not counted.
-/

namespace Localization.Source

/-- A line and a column, both counted from one. -/
structure Location where
  line : Nat
  column : Nat
  deriving DecidableEq, Repr, Inhabited

/-- The number of ended lines in a text, and the characters behind the last line end. -/
def linesOf (ended : Nat) (line : List Char) : List Char → Nat × List Char
  | [] => (ended, line.reverse)
  | '\r' :: '\n' :: rest => linesOf (ended + 1) [] rest
  | c :: rest =>
    if c = '\n' ∨ c = '\r' then linesOf (ended + 1) [] rest else linesOf ended (c :: line) rest

/-- The location of a byte offset. -/
def locate (source : List Char) (offset : Nat) : Location :=
  let before := Text.takeBytes source offset
  let text := if before.head? = some (Char.ofNat 0xFEFF) then before.tail else before
  let (ended, line) := linesOf 0 [] text
  ⟨ended + 1, Text.columns line + 1⟩

end Localization.Source
