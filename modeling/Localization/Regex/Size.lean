import Localization.Regex.Syntax

/-!
How much memory a written regular expression takes when its repetitions are written out. The amounts are
those of an automaton over the bytes of UTF-8 with 32 bytes to a state and 8 to a byte range. Main
definitions: `Written.weight`, which needs no repetition to be written out, and `Written.once`.
-/

namespace Localization

/-- What an automaton for a named set takes, in bytes. -/
def NamedSet.weight : NamedSet → Nat
  | .word => 20264
  | .letter => 17496
  | .mark => 8928
  | .lowerCase => 7952
  | .symbol => 7776
  | .upperCase => 7440
  | .punctuation => 6464
  | .number => 4616
  | .digit => 1360
  | .latin => 1200
  | .han | .hangul | .hiragana | .katakana | .greek | .cyrillic => 600
  | .space | .separator => 392

namespace Regex

/-- What a written set takes beyond its first state, in bytes. -/
def SetSyntax.weight : SetSyntax → Nat
  | .range _ hi => if hi.char.toNat < 0x80 then 8 else 240
  | .ascii _ _ => 32
  | .named s _ _ => s.weight
  | .property _ _ _ => 8000
  | .none => 0
  | .union a b | .intersection a b | .difference a b | .symmetricDifference a b =>
    a.weight + b.weight
  | .bracketed _ inside _ => inside.weight

def Written.weight : Written → Nat
  | .empty => 32
  | .assertion _ => 32
  | .literal c => 32 * c.char.utf8Size
  | .dot _ => 392
  | .set s => 32 + s.weight
  | .repetition least none r => max 1 least * r.weight + 32
  | .repetition least (some most) r => most * r.weight + (most - least + 1) * 32
  | .group _ r => r.weight + 64
  | .flags _ => 32
  | .seq a b => a.weight + b.weight
  | .alt a b => a.weight + b.weight + 36

/-- The most that an expression may take. -/
def weightLimit : Nat :=
  10 * Nat.pow 2 20

/-- The same expression with every repetition done once. -/
def Written.once : Written → Written
  | .repetition _ _ r => .repetition 1 (some 1) r.once
  | .group changes r => .group changes r.once
  | .seq a b => .seq a.once b.once
  | .alt a b => .alt a.once b.once
  | r => r

end Regex

end Localization
