/-!
Sets of characters given as lists of closed ranges of code points, in increasing order, and Hangul
syllables. Korean text is recognised by a precomposed syllable; single jamo and compatibility jamo do
not count.
-/

namespace Localization.Text

/-- Whether a code point lies in one of the ranges. The ranges increase, so the search stops at the
first one that ends at or after the code point. -/
def inRanges (n : Nat) : List (Nat × Nat) → Bool
  | [] => false
  | (lo, hi) :: rest => if n ≤ hi then lo ≤ n else inRanges n rest

/-! ## Hangul syllables -/

/-- The characters `가` to `힣`. -/
def isHangul (c : Char) : Bool :=
  0xAC00 ≤ c.toNat && c.toNat ≤ 0xD7A3

def containsHangul (text : String) : Bool :=
  text.toList.any isHangul

theorem containsHangul_iff {text : String} :
    containsHangul text = true ↔ ∃ c ∈ text.toList, isHangul c = true := by
  simp [containsHangul]

end Localization.Text
