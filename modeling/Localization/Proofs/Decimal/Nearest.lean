import Mathlib.Algebra.Order.Field.Power
import Mathlib.Data.Rat.Cast.Order
import Mathlib.Tactic.FieldSimp
import Mathlib.Tactic.Linarith
import Mathlib.Tactic.Positivity
import Mathlib.Tactic.Ring
import Localization.Decimal.Binary64

/-!
Rounding to the numbers of the binary format. A quotient is out of range only from half a step above the
largest number on, and a whole number is rounded with a small relative error.
-/

namespace Localization.Binary64

variable {n d m : Nat} {e : Int} {x y : Binary64}

/-- The real that a number stands for. -/
def value (x : Binary64) : ℚ :=
  x.mantissa * 2 ^ x.exponent

/-- The numbers of the format: larger exponents and mantissas are out of range. -/
structure IsFinite (x : Binary64) : Prop where
  mantissa : x.mantissa < 2 ^ 53
  exponent : x.exponent ≤ 971

/-- Half a step above the largest number. -/
def bound : ℚ :=
  (2 ^ 53 - 1 / 2) * 2 ^ (971 : Int)

theorem cast_pow_two (k : Nat) : ((Nat.pow 2 k : Nat) : ℚ) = 2 ^ k := by
  rw [Nat.pow_eq, Nat.cast_pow, Nat.cast_ofNat]

theorem value_nonneg (x : Binary64) : 0 ≤ x.value := by
  unfold value
  positivity

theorem IsFinite.value_lt (h : x.IsFinite) : x.value < bound := by
  have hm : (x.mantissa : ℚ) ≤ 2 ^ 53 - 1 := by
    have hnat : x.mantissa + 1 ≤ 2 ^ 53 := h.mantissa
    have hcast : ((x.mantissa + 1 : Nat) : ℚ) ≤ ((2 ^ 53 : Nat) : ℚ) := Nat.cast_le.mpr hnat
    push_cast at hcast
    linarith
  calc x.value ≤ (2 ^ 53 - 1) * 2 ^ (971 : Int) := by
        unfold value
        exact mul_le_mul hm (zpow_le_zpow_right₀ (by norm_num) h.exponent) (by positivity)
          (by norm_num)
    _ < bound := mul_lt_mul_of_pos_right (by norm_num) (by positivity)

/-- Between the two largest numbers there is none. -/
theorem IsFinite.value_le_of_ne (h : x.IsFinite) (hne : x ≠ ⟨Nat.pow 2 53 - 1, 971⟩) :
    x.value ≤ ((Nat.pow 2 53 - 2 : Nat) : ℚ) * 2 ^ (971 : Int) := by
  have hmantissa := h.mantissa
  have hpos : (0 : ℚ) ≤ 2 ^ (971 : Int) := by positivity
  rcases Int.lt_or_eq_of_le h.exponent with hexponent | hexponent
  · have hm : (x.mantissa : ℚ) ≤ ((2 ^ 53 : Nat) : ℚ) := Nat.cast_le.mpr hmantissa.le
    calc x.value ≤ ((2 ^ 53 : Nat) : ℚ) * 2 ^ (970 : Int) :=
          mul_le_mul hm (zpow_le_zpow_right₀ one_le_two (Int.le_of_lt_add_one hexponent))
            (zpow_nonneg zero_le_two _) (Nat.cast_nonneg _)
      _ ≤ ((Nat.pow 2 53 - 2 : Nat) : ℚ) * 2 * 2 ^ (970 : Int) :=
          mul_le_mul_of_nonneg_right (by norm_num) (zpow_nonneg zero_le_two _)
      _ = ((Nat.pow 2 53 - 2 : Nat) : ℚ) * 2 ^ (971 : Int) := by
          rw [mul_assoc, mul_comm 2, ← zpow_add_one₀ two_ne_zero]
          rfl
  · have hm : x.mantissa ≤ Nat.pow 2 53 - 2 := by
      have hmax : x.mantissa ≠ Nat.pow 2 53 - 1 := fun heq =>
        hne (by cases x; cases hexponent; cases heq; rfl)
      simp only [Nat.pow_eq] at hmax ⊢
      omega
    rw [value, hexponent]
    exact mul_le_mul_of_nonneg_right (Nat.cast_le.mpr hm) hpos

theorem ratio_pos (x : Binary64) : 0 < x.ratio.2 := by
  unfold ratio
  split
  · exact Nat.one_pos
  · exact Nat.two_pow_pos _

theorem ratio_div (x : Binary64) : (x.ratio.1 : ℚ) / x.ratio.2 = x.value := by
  obtain ⟨m, e⟩ := x
  cases e with
  | ofNat k => simp [ratio, value]
  | negSucc k => simp [ratio, value, zpow_negSucc, div_eq_mul_inv]

theorem scaled_pos (hd : 0 < d) (n : Nat) (e : Int) : 0 < (scaled n d e).2 := by
  unfold scaled
  split
  · exact Nat.mul_pos hd (Nat.two_pow_pos _)
  · exact hd

theorem scaled_div (n d : Nat) (e : Int) :
    ((scaled n d e).1 : ℚ) / (scaled n d e).2 = n / d / 2 ^ e := by
  cases e with
  | ofNat k => simp [scaled, div_div]
  | negSucc k => 
      simp [scaled, zpow_negSucc]
      field_simp

/-- A rounded quotient is at most a half away. -/
theorem roundedQuotient_spec (hd : 0 < d) (n : Nat) :
    2 * n ≤ 2 * roundedQuotient n d * d + d ∧ 2 * roundedQuotient n d * d ≤ 2 * n + d := by
  have hdiv := Nat.div_add_mod n d
  have hmod := Nat.mod_lt n hd
  have hmul : 2 * (n / d) * d = 2 * (d * (n / d)) := by ring
  have hnext : 2 * (n / d + 1) * d = 2 * (d * (n / d)) + 2 * d := by ring
  unfold roundedQuotient
  dsimp only
  split
  · omega
  · split
    · omega
    · split
      · omega
      · omega

theorem lt_quotient (hn : 0 < n) (hd : 0 < d) :
    (2 : ℚ) ^ ((n.log2 : Int) - d.log2 - 1) < n / d := by
  have hlow : ((2 ^ n.log2 : Nat) : ℚ) ≤ n := Nat.cast_le.mpr (Nat.log2_self_le hn.ne')
  have hhigh : (d : ℚ) < ((2 ^ (d.log2 + 1) : Nat) : ℚ) := Nat.cast_lt.mpr Nat.lt_log2_self
  have hpos : (0 : ℚ) < d := Nat.cast_pos.mpr hd
  rw [lt_div_iff₀ hpos]
  calc (2 : ℚ) ^ ((n.log2 : Int) - d.log2 - 1) * d
      < 2 ^ ((n.log2 : Int) - d.log2 - 1) * ((2 ^ (d.log2 + 1) : Nat) : ℚ) := by gcongr
    _ = ((2 ^ n.log2 : Nat) : ℚ) := by
        push_cast
        rw [← zpow_natCast, ← zpow_natCast, ← zpow_add₀ two_ne_zero]
        congr 1
        push_cast
        omega
    _ ≤ n := hlow

theorem quotient_lt (n : Nat) (hd : 0 < d) :
    (n : ℚ) / d < 2 ^ ((n.log2 : Int) - d.log2 + 1) := by
  have hhigh : (n : ℚ) < ((2 ^ (n.log2 + 1) : Nat) : ℚ) := Nat.cast_lt.mpr Nat.lt_log2_self
  have hlow : ((2 ^ d.log2 : Nat) : ℚ) ≤ d := Nat.cast_le.mpr (Nat.log2_self_le hd.ne')
  have hpos : (0 : ℚ) < d := Nat.cast_pos.mpr hd
  rw [div_lt_iff₀ hpos]
  calc (n : ℚ) < ((2 ^ (n.log2 + 1) : Nat) : ℚ) := hhigh
    _ = 2 ^ ((n.log2 : Int) - d.log2 + 1) * ((2 ^ d.log2 : Nat) : ℚ) := by
        push_cast
        rw [← zpow_natCast, ← zpow_natCast, ← zpow_add₀ two_ne_zero]
        congr 1
        push_cast
        omega
    _ ≤ 2 ^ ((n.log2 : Int) - d.log2 + 1) * d := by gcongr

/-- A mantissa that rounding made too large is halved. -/
def carried (m : Nat) (e : Int) : Binary64 :=
  if m = Nat.pow 2 53 then ⟨Nat.pow 2 52, e + 1⟩ else ⟨m, e⟩

/-- What rounding `v` to `m * 2 ^ e` gives: at most a half is lost, and above the smallest exponent the
mantissa is not too small. -/
structure Rounded (v : ℚ) (m : Nat) (e : Int) : Prop where
  lower : v / 2 ^ e ≤ m + 1 / 2
  upper : (m : ℚ) ≤ v / 2 ^ e + 1 / 2
  small : m ≤ 2 ^ 53
  normal : -1074 < e → 2 ^ 52 * 2 ^ e ≤ v

theorem rounded_scaled (hd : 0 < d) (n : Nat) (e : Int)
    (hsmall : (n : ℚ) / d / 2 ^ e < 2 ^ 53)
    (hnormal : -1074 < e → (2 : ℚ) ^ 52 * 2 ^ e ≤ n / d) :
    Rounded (n / d) (roundedQuotient (scaled n d e).1 (scaled n d e).2) e := by
  have hpos := scaled_pos hd n e
  obtain ⟨hlower, hupper⟩ := roundedQuotient_spec hpos (scaled n d e).1
  rw [← scaled_div] at hsmall
  have hb : (0 : ℚ) < (scaled n d e).2 := Nat.cast_pos.mpr hpos
  refine ⟨?_, ?_, ?_, hnormal⟩
  · rw [← scaled_div, div_le_iff₀ hb]
    have hcast : ((2 * (scaled n d e).1 : Nat) : ℚ) ≤ _ := Nat.cast_le.mpr hlower
    push_cast at hcast
    linarith
  · rw [← scaled_div, ← sub_le_iff_le_add, le_div_iff₀ hb]
    have hcast : ((2 * roundedQuotient (scaled n d e).1 (scaled n d e).2 * (scaled n d e).2 : Nat) : ℚ) ≤ _ :=
      Nat.cast_le.mpr hupper
    push_cast at hcast
    linarith
  · rw [div_lt_iff₀ hb] at hsmall
    have hnat : (scaled n d e).1 < 2 ^ 53 * (scaled n d e).2 := by exact_mod_cast hsmall
    by_contra hlarge
    have hmul : (2 * 2 ^ 53 + 2) * (scaled n d e).2 ≤
        2 * roundedQuotient (scaled n d e).1 (scaled n d e).2 * (scaled n d e).2 :=
      Nat.mul_le_mul_right _ (by omega)
    rw [Nat.add_mul] at hmul
    omega

theorem exists_rounded (hn : 0 < n) (hd : 0 < d) : ∃ m e, Rounded (n / d) m e ∧
    nearest? n d = if 971 < (carried m e).exponent then none else some (carried m e) := by
  have hlow := lt_quotient hn hd
  have hhigh := quotient_lt n hd
  rw [nearest?, if_neg hn.ne']
  generalize hleast : max ((n.log2 : Int) - (d.log2 : Int) - 53) (-1074) = least
  have hb : (0 : ℚ) < (scaled n d least).2 := Nat.cast_pos.mpr (scaled_pos hd n least)
  -- With one bit too many at the least exponent, the next one is right.
  by_cases hlarge : Nat.pow 2 53 ≤ (scaled n d least).1 / (scaled n d least).2
  · refine ⟨_, least + 1, rounded_scaled hd n (least + 1) ?_ fun _ => ?_, ?_⟩
    · rw [div_lt_iff₀ (by positivity)]
      refine hhigh.trans_le ?_
      rw [← zpow_natCast, ← zpow_add₀ two_ne_zero]
      exact zpow_le_zpow_right₀ one_le_two (by push_cast; omega)
    · have hnat : 2 ^ 53 * (scaled n d least).2 ≤ (scaled n d least).1 :=
        (Nat.le_div_iff_mul_le (scaled_pos hd n least)).mp hlarge
      have hcast : (2 : ℚ) ^ 53 * (scaled n d least).2 ≤ (scaled n d least).1 := by
        exact_mod_cast hnat
      rw [← le_div_iff₀ hb, scaled_div, le_div_iff₀ (by positivity)] at hcast
      rw [zpow_add_one₀ two_ne_zero]
      linarith
    · simp only [if_pos hlarge]
      rfl
  · refine ⟨_, least, rounded_scaled hd n least ?_ fun hleast' => ?_, ?_⟩
    · have hnat : (scaled n d least).1 < 2 ^ 53 * (scaled n d least).2 :=
        (Nat.div_lt_iff_lt_mul (scaled_pos hd n least)).mp (Nat.not_le.mp hlarge)
      rw [← scaled_div, div_lt_iff₀ hb]
      exact_mod_cast hnat
    · refine le_trans ?_ hlow.le
      rw [← zpow_natCast, ← zpow_add₀ two_ne_zero]
      exact zpow_le_zpow_right₀ one_le_two (by push_cast; omega)
    · simp only [if_neg hlarge]
      rfl

theorem value_carried (m : Nat) (e : Int) : (carried m e).value = m * 2 ^ e := by
  unfold carried
  split
  · next hm =>
      rw [value, hm, zpow_add_one₀ two_ne_zero]
      push_cast
      ring
  · rfl

/-- A quotient is out of range only from the bound on. -/
theorem bound_le_of_nearest? (hd : 0 < d) (h : nearest? n d = none) : bound ≤ n / d := by
  rcases Nat.eq_zero_or_pos n with rfl | hn
  · rw [nearest?, if_pos rfl] at h
    cases h
  obtain ⟨m, e, hrounded, hnearest⟩ := exists_rounded hn hd
  rw [hnearest] at h
  split at h
  · next hlarge =>
      have hm : (971 : Int) < e ∨ e = 971 ∧ m = 2 ^ 53 := by
        unfold carried at hlarge
        split at hlarge
        · next hm =>
            simp only at hlarge
            exact (Int.lt_or_eq_of_le (by omega)).imp_right fun he => ⟨he.symm, hm⟩
        · exact .inl hlarge
      rcases hm with he | ⟨rfl, rfl⟩
      · calc bound ≤ 2 ^ 53 * 2 ^ (971 : Int) := by
              unfold bound
              gcongr
              norm_num
          _ = 2 ^ 52 * 2 ^ (972 : Int) := by
              rw [show (972 : Int) = 971 + 1 from rfl, zpow_add_one₀ two_ne_zero,
                mul_comm _ (2 : ℚ), ← mul_assoc]
              congr 1
              norm_num
          _ ≤ 2 ^ 52 * 2 ^ e := by
              gcongr
              · exact one_le_two
              · omega
          _ ≤ n / d := hrounded.normal (by omega)
      · have hupper := hrounded.upper
        rw [Nat.cast_pow, Nat.cast_ofNat] at hupper
        rw [bound, ← le_div_iff₀ (by positivity)]
        linarith
  · cases h

/-- What is in range is rounded to a number of the format. -/
theorem isFinite_of_nearest? (hd : 0 < d) (h : nearest? n d = some x) : x.IsFinite := by
  rcases Nat.eq_zero_or_pos n with rfl | hn
  · rw [nearest?, if_pos rfl] at h
    obtain rfl := Option.some.inj h
    exact ⟨by decide, by decide⟩
  obtain ⟨m, e, hrounded, hnearest⟩ := exists_rounded hn hd
  rw [hnearest] at h
  split at h
  · cases h
  · next hsmall =>
      obtain rfl := Option.some.inj h
      refine ⟨?_, Int.not_lt.mp hsmall⟩
      unfold carried
      split
      · exact Nat.pow_lt_pow_right Nat.one_lt_two (Nat.lt_succ_self 52)
      · next hm => exact Nat.lt_of_le_of_ne hrounded.small hm

/-- Rounding a whole number changes it by less than its last bit. -/
theorem value_of_ofNat? (h : ofNat? n = some x) :
    n * (1 - 1 / 2 ^ 53) ≤ x.value ∧ x.value ≤ n * (1 + 1 / 2 ^ 53) := by
  rcases Nat.eq_zero_or_pos n with rfl | hn
  · rw [ofNat?, nearest?, if_pos rfl] at h
    obtain rfl := Option.some.inj h
    simp [value]
  obtain ⟨m, e, hrounded, hnearest⟩ := exists_rounded hn Nat.one_pos
  rw [ofNat?, hnearest] at h
  split at h
  · cases h
  · obtain rfl := Option.some.inj h
    have hbit : 2 ^ 52 * 2 ^ e ≤ (n : ℚ) := by
      rcases Int.lt_or_le (-1074) e with he | he
      · have hnormal := hrounded.normal he
        rwa [Nat.cast_one, div_one] at hnormal
      · calc (2 : ℚ) ^ 52 * 2 ^ e ≤ 2 ^ 52 * 2 ^ (-52 : Int) := by
              gcongr
              · exact one_le_two
              · omega
          _ = 1 := by norm_num
          _ ≤ n := Nat.one_le_cast.mpr hn
    have hlower := hrounded.lower
    have hupper := hrounded.upper
    rw [Nat.cast_one, div_one, div_le_iff₀ (by positivity)] at hlower
    rw [Nat.cast_one, div_one, ← sub_le_iff_le_add, le_div_iff₀ (by positivity)] at hupper
    rw [value_carried]
    constructor
    · linarith
    · linarith

theorem exists_nearest? (hd : 0 < d) (h : (n : ℚ) / d < bound) :
    ∃ x, nearest? n d = some x ∧ x.IsFinite := by
  cases hx : nearest? n d with
  | none => exact absurd (bound_le_of_nearest? hd hx) (not_le.mpr h)
  | some x => exact ⟨x, rfl, isFinite_of_nearest? hd hx⟩

theorem exists_mul? (h : x.value * y.value < bound) : ∃ z, x.mul? y = some z ∧ z.IsFinite := by
  refine exists_nearest? (Nat.mul_pos x.ratio_pos y.ratio_pos) ?_
  push_cast
  rw [mul_div_mul_comm, ratio_div, ratio_div]
  exact h

/-- Division by a number that is not less than one stays in range. -/
theorem exists_div? (hx : x.IsFinite) (hy : 1 ≤ y.value) : ∃ z, x.div? y = some z ∧ z.IsFinite := by
  have hpos : 0 < y.ratio.1 := by
    rw [← ratio_div] at hy
    refine Nat.pos_of_ne_zero fun hzero => ?_
    rw [hzero, Nat.cast_zero, zero_div] at hy
    exact absurd hy (by norm_num)
  refine exists_nearest? (Nat.mul_pos x.ratio_pos hpos) ?_
  push_cast
  rw [mul_div_mul_comm, ratio_div, ← inv_div, ratio_div, ← div_eq_mul_inv]
  exact (div_le_self x.value_nonneg hy).trans_lt hx.value_lt

end Localization.Binary64
