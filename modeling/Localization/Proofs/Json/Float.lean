import Localization.Json.Reader
import Localization.Proofs.Decimal.Nearest

/-!
The floats of decimals. The float of a decimal is a number of the format, and there is one for every
decimal that is out of range only by its own rounding.
-/

namespace Localization.Json.Reader

open Binary64 (IsFinite bound ofNat?)

variable {n k : Nat} {e : Int} {x y z : Binary64}

/-- Half a step above the largest float, as a whole number. -/
def limit : Nat :=
  (Nat.pow 2 54 - 1) * Nat.pow 2 970

theorem cast_limit : (limit : ℚ) = bound := by
  have hstep : ((Nat.pow 2 54 - 1 : Nat) : ℚ) = (2 ^ 53 - 1 / 2) * 2 := by norm_num
  rw [limit, bound, Nat.cast_mul, hstep, Binary64.cast_pow_two 970, show (971 : Int) = (970 : Nat) + 1 from rfl,
    zpow_add_one₀ two_ne_zero, zpow_natCast, mul_comm (_ ^ 970) (2 : ℚ), mul_assoc]

theorem exists_ofNat? (h : n < limit) : ∃ x, ofNat? n = some x ∧ x.IsFinite := by
  refine Binary64.exists_nearest? Nat.one_pos ?_
  rw [Nat.cast_one, div_one, ← cast_limit]
  exact Nat.cast_lt.mpr h

theorem ofNat?_one : ofNat? (Nat.pow 10 0) = some ⟨Nat.pow 2 52, -52⟩ := by
  decide +kernel

theorem value_one : (⟨Nat.pow 2 52, -52⟩ : Binary64).value = 1 := by
  norm_num [Binary64.value]

theorem pow_lt_limit (hk : k < 309) : Nat.pow 10 k < limit := by
  have hpow : ∀ l, k ≤ l → Nat.pow 10 k ≤ Nat.pow 10 l := fun l => Nat.pow_le_pow_right (by decide)
  exact (hpow 308 (by omega)).trans_lt (by decide +kernel)

/-- The powers of ten by which floats are divided and multiplied. -/
theorem exists_ofNat?_pow (hk : k < 309) :
    ∃ p, ofNat? (Nat.pow 10 k) = some p ∧ p.IsFinite ∧ 1 ≤ p.value ∧
      p.value ≤ 10 ^ k * (1 + 1 / 2 ^ 53) := by
  obtain ⟨p, hp, hfinite⟩ := exists_ofNat? (pow_lt_limit hk)
  obtain ⟨hlower, hupper⟩ := Binary64.value_of_ofNat? hp
  refine ⟨p, hp, hfinite, ?_, by exact_mod_cast hupper⟩
  cases k with
  | zero =>
      obtain rfl := Option.some.inj (ofNat?_one.symm.trans hp)
      exact value_one.ge
  | succ k =>
      have hten : ((10 : Nat) : ℚ) ≤ ((Nat.pow 10 (k + 1) : Nat) : ℚ) := by
        refine Nat.cast_le.mpr ?_
        exact Nat.le_self_pow (Nat.succ_ne_zero k) 10
      push_cast at hten
      linarith

theorem exists_shift (hx : x.IsFinite) (he : e ≤ 0) :
    ∃ z, floatOf?.shift x e = some z ∧ z.IsFinite := by
  obtain ⟨big, hbig, -, hone, -⟩ := exists_ofNat?_pow (show 308 < 309 by decide)
  rw [floatOf?.shift, hbig, Option.bind_eq_bind, Option.bind_some]
  split
  · obtain ⟨y, hy, hfinite⟩ := Binary64.exists_div? hx hone
    rw [hy, Option.bind_some]
    split
    · exact ⟨_, rfl, by decide, by decide⟩
    · obtain ⟨p, hp, -, hp1, -⟩ := exists_ofNat?_pow (k := (e + 308).natAbs) (by omega)
      rw [hp, Option.bind_some]
      exact Binary64.exists_div? hfinite hp1
  · obtain ⟨p, hp, -, hp1, -⟩ := exists_ofNat?_pow (k := e.natAbs) (by omega)
    rw [hp, Option.bind_some]
    exact Binary64.exists_div? hx hp1

/-- Without digits in front of the point that are left out, a decimal is in range. -/
theorem exists_floatOf?_of_nonpos (hx : ofNat? n = some x) (he : e ≤ 0) :
    ∃ z, floatOf? n e = some z ∧ z.IsFinite := by
  have hfinite := Binary64.isFinite_of_nearest? Nat.one_pos hx
  rw [floatOf?, hx, Option.bind_eq_bind, Option.bind_some]
  split
  · obtain ⟨big, hbig, -, hone, -⟩ := exists_ofNat?_pow (show 308 < 309 by decide)
    rw [hbig, Option.bind_some]
    split
    · exact ⟨x, rfl, hfinite⟩
    · obtain ⟨y, hy, hy'⟩ := Binary64.exists_div? hfinite hone
      rw [hy, Option.bind_some]
      exact exists_shift hy' (by omega)
  · rw [if_neg (by omega)]
    obtain ⟨p, hp, -, hp1, -⟩ := exists_ofNat?_pow (k := e.natAbs) (by omega)
    rw [hp, Option.bind_some]
    split
    · obtain rfl : e = 0 := by omega
      obtain rfl := Option.some.inj (ofNat?_one.symm.trans hp)
      refine Binary64.exists_mul? ?_
      rw [value_one, mul_one]
      exact hfinite.value_lt
    · exact Binary64.exists_div? hfinite hp1

theorem isFinite_of_floatOf? (h : floatOf? n e = some z) : z.IsFinite := by
  obtain ⟨x, hx, hz⟩ := Option.bind_eq_some_iff.mp h
  rcases Int.lt_or_le 0 e with he | he
  · rw [if_neg (by omega)] at hz
    split at hz
    · split at hz
      · exact Option.some.inj hz ▸ Binary64.isFinite_of_nearest? Nat.one_pos hx
      · cases hz
    · obtain ⟨p, -, hz⟩ := Option.bind_eq_some_iff.mp hz
      rw [if_pos he.le] at hz
      exact Binary64.isFinite_of_nearest? (Nat.mul_pos x.ratio_pos p.ratio_pos) hz
  · obtain ⟨z', hz', hfinite⟩ := exists_floatOf?_of_nonpos hx he
    exact Option.some.inj (hz'.symm.trans h) ▸ hfinite

/-- The largest number of seventeen digits that is in range with `k` zeros behind it. -/
def largest (k : Nat) : Nat :=
  min (Nat.pow 10 17) ((limit - 1) / Nat.pow 10 k)

/-- Whether the digits are still in range when they and the power are rounded. -/
def HasRoom (n k : Nat) : Prop :=
  n * Nat.pow 10 k * (Nat.pow 2 53 + 1) ^ 2 < limit * (Nat.pow 2 53) ^ 2

instance (n k : Nat) : Decidable (HasRoom n k) :=
  inferInstanceAs (Decidable (_ < _))

theorem hasRoom_largest : ∀ k < 309, k ≠ 292 → HasRoom (largest k) k := by
  decide +kernel

/-- The decimal of seventeen digits next to the limit, with 292 zeros behind it. It is in range, but not
the product of its rounded digits and the rounded power. -/
def lost : Nat :=
  17976931348623158

theorem hasRoom_lost : HasRoom (lost - 4) 292 := by
  decide +kernel

theorem isSome_floatOf?_near : ∀ i < 3, (floatOf? (lost - 3 + i) 292).isSome = true := by
  decide +kernel

theorem HasRoom.mono {m : Nat} (h : HasRoom m k) (hn : n ≤ m) : HasRoom n k :=
  (Nat.mul_le_mul_right _ (Nat.mul_le_mul_right _ hn)).trans_lt h

theorem le_largest (hn : n ≤ Nat.pow 10 17) (h : n * Nat.pow 10 k < limit) : n ≤ largest k := by
  refine Nat.le_min.mpr ⟨hn, (Nat.le_div_iff_mul_le (Nat.pow_pos (by decide))).mpr ?_⟩
  exact Nat.le_sub_one_of_lt h

theorem HasRoom.exists_floatOf? (h : HasRoom n k) (hk : k < 309) :
    ∃ x, floatOf? n k = some x := by
  have hpow : 1 ≤ Nat.pow 10 k := Nat.pow_pos (by decide)
  have hreal : ((_ : Nat) : ℚ) < ((_ : Nat) : ℚ) := Nat.cast_lt.mpr h
  simp only [Nat.cast_mul, Nat.pow_eq, Nat.cast_pow, Nat.cast_add, Nat.cast_ofNat,
    Nat.cast_one, cast_limit] at hreal
  have hlimit : n < limit := by
    have hmul : n * Nat.pow 10 k < limit := by
      refine Nat.lt_of_mul_lt_mul_right (a := (Nat.pow 2 53) ^ 2) ((Nat.mul_le_mul_left _ ?_).trans_lt h)
      exact Nat.pow_le_pow_left (Nat.le_succ _) 2
    exact (Nat.le_mul_of_pos_right n hpow).trans_lt hmul
  obtain ⟨x, hx, -⟩ := exists_ofNat? hlimit
  obtain ⟨-, hxvalue⟩ := Binary64.value_of_ofNat? hx
  obtain ⟨p, hp, -, -, hpvalue⟩ := exists_ofNat?_pow hk
  obtain ⟨z, hz, -⟩ : ∃ z, x.mul? p = some z ∧ z.IsFinite := by
    refine Binary64.exists_mul? ?_
    calc x.value * p.value
        ≤ n * (1 + 1 / 2 ^ 53) * (10 ^ k * (1 + 1 / 2 ^ 53)) :=
          mul_le_mul hxvalue hpvalue p.value_nonneg (mul_nonneg (Nat.cast_nonneg n) (by norm_num))
      _ = n * 10 ^ k * (2 ^ 53 + 1) ^ 2 / (2 ^ 53) ^ 2 := by field_simp
      _ < Binary64.bound := (div_lt_iff₀ (by norm_num)).mpr hreal
  refine ⟨z, ?_⟩
  rw [floatOf?, hx, Option.bind_eq_bind, Option.bind_some, if_neg (by omega), if_neg (by omega),
    Int.natAbs_natCast, hp, Option.bind_some, if_pos (Int.natCast_nonneg k)]
  exact hz

/-- Every decimal of seventeen digits in range but one has a float. -/
theorem exists_floatOf?_of_lt_limit (hn : n ≤ Nat.pow 10 17) (h : n * Nat.pow 10 k < limit)
    (hlost : ¬ (n = lost ∧ k = 292)) (hk : k < 309) : ∃ x, floatOf? n k = some x := by
  have hle := le_largest hn h
  by_cases hk' : k = 292
  · subst hk'
    by_cases hroom : n ≤ lost - 4
    · exact (hasRoom_lost.mono hroom).exists_floatOf? hk
    · have hlargest : largest 292 = lost := by decide +kernel
      rw [hlargest] at hle
      obtain ⟨i, rfl⟩ : ∃ i, n = lost - 3 + i := ⟨n - (lost - 3), by omega⟩
      have hi : i < 3 := by
        have hne : lost - 3 + i ≠ lost := fun heq => hlost ⟨heq, rfl⟩
        simp only [lost] at hle hne
        omega
      exact Option.isSome_iff_exists.mp (isSome_floatOf?_near i hi)
  · exact ((hasRoom_largest k hk hk').mono hle).exists_floatOf? hk

end Localization.Json.Reader
