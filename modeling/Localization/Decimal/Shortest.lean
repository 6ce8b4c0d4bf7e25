import Localization.Decimal.Binary64

/-!
The shortest decimal that reads back as a given number: of the decimals with the fewest digits that lie
in the interval of reals rounded to the number, the one nearest to it.
-/

namespace Localization.Decimal

/-- Digits behind a decimal point, times a power of ten: `0.d₁d₂… * 10 ^ point`. -/
structure Digits where
  digits : List Nat
  point : Int
  deriving DecidableEq, Repr, Inhabited

/-- Whether `a / b ≤ c / d`. -/
def leRatio (a b : Nat × Nat) : Bool :=
  a.1 * b.2 ≤ b.1 * a.2

/-- The ends of the interval of reals that are rounded to a number, four times as fine as its last
bit. -/
def interval (x : Binary64) : (Nat × Nat) × (Nat × Nat) :=
  let below := if x.mantissa = Nat.pow 2 52 && -1074 < x.exponent then 1 else 2
  let quarter := fun n => (⟨n, x.exponent - 2⟩ : Binary64).ratio
  (quarter (4 * x.mantissa - below), quarter (4 * x.mantissa + 2))

/-- Whether a real is rounded to a number; the ends of the interval are if the mantissa is even. -/
def reads (x : Binary64) (r : Nat × Nat) : Bool :=
  let (lo, hi) := interval x
  if x.mantissa % 2 = 0 then leRatio lo r && leRatio r hi
  else !leRatio r lo && !leRatio hi r

/-- The real `n * 10 ^ e`. -/
def decimalRatio (n : Nat) (e : Int) : Nat × Nat :=
  match e with
  | .ofNat k => (n * Nat.pow 10 k, 1)
  | .negSucc k => (n, Nat.pow 10 (k + 1))

/-- The number of decimal digits of a number; one for zero. -/
def digitCount (n : Nat) : Nat :=
  (Nat.toDigits 10 n).length

/-- The least power of ten that is greater than a number. -/
def pointOf (x : Binary64) : Int :=
  let (n, d) := x.ratio
  if d ≤ n then (digitCount (n / d) : Int)
  else
    let estimate : Int := (digitCount n : Int) - (digitCount d : Int) + 1
    if leRatio (decimalRatio 1 (estimate - 1)) (n, d) then estimate else estimate - 1

/-- The whole number of steps `10 ^ e` below a real. -/
def stepsBelow (r : Nat × Nat) (e : Int) : Nat :=
  match e with
  | .ofNat k => r.1 / (r.2 * Nat.pow 10 k)
  | .negSucc k => r.1 * Nat.pow 10 (k + 1) / r.2

/-- Of the two decimals next to a number on the grid of steps `10 ^ e`, the one that reads back as the
number; if both do, the nearer, and of two equally near the even one. -/
def onGrid? (x : Binary64) (e : Int) : Option Nat :=
  let r := x.ratio
  let below := stepsBelow r e
  let lo := decimalRatio below e
  let hi := decimalRatio (below + 1) e
  match reads x lo && below != 0, reads x hi with
  | true, false => some below
  | false, true => some (below + 1)
  | false, false => none
  | true, true =>
    -- `2 * r` against `lo + hi`
    let twice := (2 * r.1, r.2)
    let sum := decimalRatio (2 * below + 1) e
    if leRatio twice sum && leRatio sum twice then
      some (if below % 2 = 0 then below else below + 1)
    else if leRatio twice sum then some below
    else some (below + 1)

/-- Tries grids with more and more digits. -/
def search (x : Binary64) (point : Int) : Nat → Nat → Digits
  | 0, _ => ⟨[0], 1⟩
  | fuel + 1, count =>
    match onGrid? x (point - count) with
    | some n =>
      let digits := (Nat.toDigits 10 n).map fun c => c.toNat - 48
      let kept := (digits.reverse.dropWhile (· == 0)).reverse
      ⟨kept, point - count + digits.length⟩
    | none => search x point fuel (count + 1)

def shortest (x : Binary64) : Digits :=
  if x.isZero then ⟨[0], 1⟩ else search x (pointOf x) 17 1

/-- Which decimals are written with an exponent, and how. -/
structure Format where
  /-- The point may stand this far left of the digits. -/
  leftmost : Int
  /-- The point may stand this far behind the first digit. -/
  rightmost : Int

def digitText (digits : List Nat) : List Char :=
  digits.map fun d => Char.ofNat (48 + d)

/-- A decimal in positions: a point always has digits on both sides. -/
def positional (d : Digits) : List Char :=
  match d.point with
  | .ofNat 0 => ['0', '.'] ++ digitText d.digits
  | .ofNat (p + 1) =>
    if d.digits.length ≤ p + 1 then
      digitText d.digits ++ List.replicate (p + 1 - d.digits.length) '0' ++ ['.', '0']
    else digitText (d.digits.take (p + 1)) ++ ['.'] ++ digitText (d.digits.drop (p + 1))
  | .negSucc p => ['0', '.'] ++ List.replicate (p + 1) '0' ++ digitText d.digits

/-- A decimal with an exponent: one digit in front of the point, and a sign in the exponent. -/
def scientific (d : Digits) : List Char :=
  let exponent := d.point - 1
  let mantissa :=
    match digitText d.digits with
    | [] => ['0']
    | [c] => [c]
    | c :: rest => c :: '.' :: rest
  let sign := if exponent < 0 then '-' else '+'
  mantissa ++ ['e', sign] ++ (toString exponent.natAbs).toList

def text (format : Format) (x : Binary64) : String :=
  let d := shortest x
  String.ofList <|
    if format.leftmost ≤ d.point && d.point ≤ format.rightmost then positional d else scientific d

end Localization.Decimal
