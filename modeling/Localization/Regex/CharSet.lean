import Localization.Text.Blank
import Localization.Text.CaseFold
import Localization.Text.Property

/-!
Sets of characters that a pattern can name.
-/

namespace Localization

/-- Sets of characters with a name of their own. -/
inductive NamedSet where
  /-- Decimal digits. -/
  | digit
  /-- White space. -/
  | space
  /-- Word characters. -/
  | word
  | letter
  | upperCase
  | lowerCase
  | mark
  | number
  | punctuation
  | symbol
  | separator
  | hangul
  | han
  | hiragana
  | katakana
  | latin
  | greek
  | cyrillic
  deriving DecidableEq, Repr

open Text in
def NamedSet.contains (s : NamedSet) (c : Char) : Bool :=
  match s with
  | .digit => isDecimalDigit c
  | .space => isBlank c
  | .word => isWord c
  | .letter => Property.isLetter c
  | .upperCase => Property.inSteps c.toNat Property.upperCaseSteps
  | .lowerCase => Property.inSteps c.toNat Property.lowerCaseSteps
  | .mark => inRanges c.toNat Property.markRanges
  | .number => inRanges c.toNat Property.numberRanges
  | .punctuation => inRanges c.toNat Property.punctuationRanges
  | .symbol => inRanges c.toNat Property.symbolRanges
  | .separator => inRanges c.toNat Property.separatorRanges
  | .hangul => inRanges c.toNat Property.hangulRanges
  | .han => inRanges c.toNat Property.hanRanges
  | .hiragana => inRanges c.toNat Property.hiraganaRanges
  | .katakana => inRanges c.toNat Property.katakanaRanges
  | .latin => inRanges c.toNat Property.latinRanges
  | .greek => inRanges c.toNat Property.greekRanges
  | .cyrillic => inRanges c.toNat Property.cyrillicRanges

inductive CharSet where
  /-- The characters from `lo` to `hi`, as code points. -/
  | range (lo hi : Nat)
  | named (s : NamedSet)
  | none
  | complement (s : CharSet)
  | union (a b : CharSet)
  | intersection (a b : CharSet)
  | difference (a b : CharSet)
  | symmetricDifference (a b : CharSet)
  /-- The characters that differ from a member in case only. -/
  | anyCase (s : CharSet)
  deriving DecidableEq, Repr

namespace CharSet

def contains : CharSet → Char → Bool
  | range lo hi, c => lo ≤ c.toNat && c.toNat ≤ hi
  | named s, c => s.contains c
  | none, _ => false
  | complement s, c => !s.contains c
  | union a b, c => a.contains c || b.contains c
  | intersection a b, c => a.contains c && b.contains c
  | difference a b, c => a.contains c && !b.contains c
  | symmetricDifference a b, c => a.contains c != b.contains c
  | anyCase s, c => (Text.CaseFold.variants c.toNat).any fun n => s.contains (Char.ofNat n)

def single (c : Char) : CharSet :=
  range c.toNat c.toNat

def ofList : List CharSet → CharSet
  | [] => none
  | [s] => s
  | s :: rest => union s (ofList rest)

def all : CharSet :=
  range 0 0x10FFFF

end CharSet

end Localization
