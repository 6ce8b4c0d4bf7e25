/-!
Non-negative numbers of the binary format with 64 bits: a mantissa of at most 53 bits times a power of
two. Results are rounded to the nearest such number, and to the even one of two that are equally near.
-/

namespace Localization

/-- The number `mantissa * 2 ^ exponent`. The exponent is at least -1074, and above that the mantissa
has all its 53 bits. -/
structure Binary64 where
  mantissa : Nat
  exponent : Int
  deriving DecidableEq, Repr, Inhabited

namespace Binary64

def ratio (x : Binary64) : Nat × Nat :=
  match x.exponent with
  | .ofNat e => (x.mantissa * Nat.pow 2 e, 1)
  | .negSucc e => (x.mantissa, Nat.pow 2 (e + 1))

/-- The parts of a quotient at a power of two: numerator and denominator of `n / d / 2 ^ e`. -/
def scaled (n d : Nat) (e : Int) : Nat × Nat :=
  match e with
  | .ofNat k => (n, d * Nat.pow 2 k)
  | .negSucc k => (n * Nat.pow 2 (k + 1), d)

/-- A quotient rounded to a whole number, a half to the even one. -/
def roundedQuotient (n d : Nat) : Nat :=
  let q := n / d
  let r := 2 * (n % d)
  if r < d then q else if d < r then q + 1 else if q % 2 = 0 then q else q + 1

/-- The number nearest to `n / d`; `none` if it is out of range. -/
def nearest? (n d : Nat) : Option Binary64 :=
  if n = 0 then some ⟨0, -1074⟩
  else
    let least : Int := max ((Nat.log2 n : Int) - (Nat.log2 d : Int) - 53) (-1074)
    let (a, b) := scaled n d least
    let e := if Nat.pow 2 53 ≤ a / b then least + 1 else least
    let (a, b) := scaled n d e
    let m := roundedQuotient a b
    let x : Binary64 := if m = Nat.pow 2 53 then ⟨Nat.pow 2 52, e + 1⟩ else ⟨m, e⟩
    if 971 < x.exponent then none else some x

def ofNat? (n : Nat) : Option Binary64 :=
  nearest? n 1

def mul? (x y : Binary64) : Option Binary64 :=
  nearest? (x.ratio.1 * y.ratio.1) (x.ratio.2 * y.ratio.2)

def div? (x y : Binary64) : Option Binary64 :=
  nearest? (x.ratio.1 * y.ratio.2) (x.ratio.2 * y.ratio.1)

def isZero (x : Binary64) : Bool :=
  x.mantissa == 0

end Binary64

end Localization
