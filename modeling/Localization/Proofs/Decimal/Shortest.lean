import Mathlib.Data.List.TakeWhile
import Localization.Decimal.Shortest
import Localization.Proofs.Decimal.Nearest

/-!
The shortest decimal of a number. It has at most seventeen digits and is in range, as it lies in the
interval of reals that are rounded to the number.
-/

namespace Localization.Decimal

open Binary64 (IsFinite bound)

variable {x : Binary64} {n : Nat} {e : Int}

theorem decimalRatio_pos (n : Nat) (e : Int) : 0 < (decimalRatio n e).2 := by
  unfold decimalRatio
  split
  · exact Nat.one_pos
  · exact Nat.pow_pos (by decide)

theorem decimalRatio_div (n : Nat) (e : Int) :
    ((decimalRatio n e).1 : ℚ) / (decimalRatio n e).2 = n * 10 ^ e := by
  cases e with
  | ofNat k => simp [decimalRatio]
  | negSucc k => simp [decimalRatio, zpow_negSucc, div_eq_mul_inv]

theorem leRatio_iff {a b : Nat × Nat} (ha : 0 < a.2) (hb : 0 < b.2) :
    leRatio a b = true ↔ (a.1 : ℚ) / a.2 ≤ b.1 / b.2 := by
  rw [leRatio, decide_eq_true_iff, div_le_div_iff₀ (Nat.cast_pos.mpr ha) (Nat.cast_pos.mpr hb)]
  exact_mod_cast Iff.rfl

/-- The whole steps below a real do not exceed it. -/
theorem stepsBelow_le (x : Binary64) (e : Int) : (stepsBelow x.ratio e : ℚ) * 10 ^ e ≤ x.value := by
  have hpos : (0 : ℚ) < x.ratio.2 := Nat.cast_pos.mpr x.ratio_pos
  rw [← x.ratio_div, le_div_iff₀ hpos]
  cases e with
  | ofNat k =>
      have h : x.ratio.1 / (x.ratio.2 * Nat.pow 10 k) * (x.ratio.2 * Nat.pow 10 k) ≤ x.ratio.1 :=
        Nat.div_mul_le_self _ _
      have hcast : (_ : ℚ) ≤ (x.ratio.1 : ℚ) := Nat.cast_le.mpr h
      simp only [Nat.cast_mul, Nat.pow_eq, Nat.cast_pow, Nat.cast_ofNat] at hcast
      rw [stepsBelow, Int.ofNat_eq_natCast, zpow_natCast]
      simp only [Nat.pow_eq]
      linarith
  | negSucc k =>
      have h : x.ratio.1 * Nat.pow 10 (k + 1) / x.ratio.2 * x.ratio.2 ≤
          x.ratio.1 * Nat.pow 10 (k + 1) :=
        Nat.div_mul_le_self _ _
      have hcast : (_ : ℚ) ≤ ((x.ratio.1 * Nat.pow 10 (k + 1) : Nat) : ℚ) := Nat.cast_le.mpr h
      simp only [Nat.cast_mul, Nat.pow_eq, Nat.cast_pow, Nat.cast_ofNat] at hcast
      rw [stepsBelow, zpow_negSucc, mul_right_comm, ← div_eq_mul_inv, div_le_iff₀ (by positivity)]
      exact hcast

theorem reads_eq (x : Binary64) (r : Nat × Nat) : reads x r =
    if x.mantissa % 2 = 0 then leRatio (interval x).1 r && leRatio r (interval x).2
    else !leRatio r (interval x).1 && !leRatio (interval x).2 r :=
  rfl

/-- What is rounded to a number is in range. -/
theorem lt_bound_of_reads (hx : x.IsFinite) (h : reads x (decimalRatio n e) = true) :
    (n : ℚ) * 10 ^ e < bound := by
  have hlast : (2 : ℚ) ^ x.exponent ≤ 2 ^ (971 : Int) :=
    zpow_le_zpow_right₀ one_le_two hx.exponent
  have hpos : (0 : ℚ) < 2 ^ x.exponent := by positivity
  have hhi : ((interval x).2.1 : ℚ) / (interval x).2.2 = (x.mantissa + 1 / 2) * 2 ^ x.exponent := by
    rw [interval, Binary64.ratio_div, Binary64.value, zpow_sub₀ two_ne_zero]
    push_cast
    field_simp
    ring
  have hhi_pos : 0 < (interval x).2.2 := Binary64.ratio_pos _
  have hcalc : ∀ m : ℚ, m ≤ 2 ^ 53 - 1 / 2 → 0 ≤ m → m * 2 ^ x.exponent ≤ bound := fun m hm hm0 =>
    mul_le_mul hm hlast hpos.le (hm0.trans hm)
  have hnonneg : ∀ {r : ℚ}, 0 ≤ r → 0 ≤ (x.mantissa : ℚ) + r := add_nonneg (Nat.cast_nonneg _)
  rw [← decimalRatio_div]
  rw [reads_eq] at h
  have hlt := hx.mantissa
  split at h
  · next heven =>
      obtain ⟨-, hle⟩ := Bool.and_eq_true_iff.mp h
      rw [leRatio_iff (decimalRatio_pos n e) hhi_pos, hhi] at hle
      have hmantissa : ((x.mantissa + 2 : Nat) : ℚ) ≤ ((2 ^ 53 : Nat) : ℚ) :=
        Nat.cast_le.mpr (by omega)
      push_cast at hmantissa
      calc ((decimalRatio n e).1 : ℚ) / (decimalRatio n e).2
          ≤ (x.mantissa + 1 / 2) * 2 ^ x.exponent := hle
        _ < (x.mantissa + 3 / 2) * 2 ^ x.exponent := mul_lt_mul_of_pos_right (by norm_num) hpos
        _ ≤ bound := hcalc _ (by linarith only [hmantissa]) (hnonneg (by norm_num))
  · next hodd =>
      obtain ⟨-, hless⟩ := Bool.and_eq_true_iff.mp h
      rw [Bool.not_eq_true', ← Bool.not_eq_true, leRatio_iff hhi_pos (decimalRatio_pos n e), hhi,
        not_le] at hless
      have hmantissa : ((x.mantissa + 1 : Nat) : ℚ) ≤ ((2 ^ 53 : Nat) : ℚ) := Nat.cast_le.mpr hlt
      push_cast at hmantissa
      exact hless.trans_le (hcalc _ (by linarith only [hmantissa]) (hnonneg (by norm_num)))

theorem onGrid?_eq_some (h : onGrid? x e = some n) :
    (n = stepsBelow x.ratio e ∧ n ≠ 0 ∨ n = stepsBelow x.ratio e + 1) ∧
      reads x (decimalRatio n e) = true := by
  rw [onGrid?] at h
  generalize stepsBelow x.ratio e = below at h ⊢
  simp only at h
  have hbelow : (reads x (decimalRatio below e) && below != 0) = true →
      below ≠ 0 ∧ reads x (decimalRatio below e) = true := fun hlo => by
    simpa [and_comm] using hlo
  split at h
  · next hlo _ =>
      obtain rfl := Option.some.inj h
      exact ⟨.inl ⟨rfl, (hbelow hlo).1⟩, (hbelow hlo).2⟩
  · next _ hhi =>
      obtain rfl := Option.some.inj h
      exact ⟨.inr rfl, hhi⟩
  · cases h
  · next hlo hhi =>
      have hn : n = below ∨ n = below + 1 := by
        split at h
        · obtain rfl := Option.some.inj h
          split
          · exact .inl rfl
          · exact .inr rfl
        · split at h
          · exact .inl (Option.some.inj h).symm
          · exact .inr (Option.some.inj h).symm
      rcases hn with rfl | rfl
      · exact ⟨.inl ⟨rfl, (hbelow hlo).1⟩, (hbelow hlo).2⟩
      · exact ⟨.inr rfl, hhi⟩

theorem lt_pow_digitCount (n : Nat) : n < 10 ^ digitCount n :=
  (Nat.length_toDigits_le_iff (by decide) Nat.length_toDigits_pos).mp (Nat.le_refl _)

theorem pow_digitCount_le (h : 0 < n) : 10 ^ (digitCount n - 1) ≤ n := by
  by_contra hlt
  have hpos : 0 < digitCount n := Nat.length_toDigits_pos
  rcases Nat.eq_zero_or_pos (digitCount n - 1) with hone | hmore
  · rw [hone] at hlt
    omega
  · have hle := (Nat.length_toDigits_le_iff (by decide) hmore).mpr (Nat.not_le.mp hlt)
    rw [← digitCount] at hle
    omega

/-- A number is less than the power of ten at its point. -/
theorem value_lt_pow_pointOf (x : Binary64) : x.value < 10 ^ pointOf x := by
  have hd := x.ratio_pos
  have hpos : (0 : ℚ) < x.ratio.2 := Nat.cast_pos.mpr hd
  rw [← x.ratio_div, pointOf]
  simp only
  split
  · have hlt : x.ratio.1 < 10 ^ digitCount (x.ratio.1 / x.ratio.2) * x.ratio.2 :=
      (Nat.div_lt_iff_lt_mul hd).mp (lt_pow_digitCount _)
    rw [zpow_natCast, div_lt_iff₀ hpos]
    exact_mod_cast hlt
  · split
    · rw [div_lt_iff₀ hpos]
      calc (x.ratio.1 : ℚ) < ((10 ^ digitCount x.ratio.1 : Nat) : ℚ) :=
            Nat.cast_lt.mpr (lt_pow_digitCount _)
        _ = 10 ^ ((digitCount x.ratio.1 : Int) - digitCount x.ratio.2 + 1) *
              ((10 ^ (digitCount x.ratio.2 - 1) : Nat) : ℚ) := by
            have hcount : 0 < digitCount x.ratio.2 := Nat.length_toDigits_pos
            rw [Nat.cast_pow, Nat.cast_pow, Nat.cast_ofNat, ← zpow_natCast, ← zpow_natCast,
              ← zpow_add₀ (by norm_num)]
            congr 1
            omega
        _ ≤ 10 ^ ((digitCount x.ratio.1 : Int) - digitCount x.ratio.2 + 1) * x.ratio.2 :=
            mul_le_mul_of_nonneg_left (Nat.cast_le.mpr (pow_digitCount_le hd)) (by positivity)
    · next hless =>
        rw [leRatio_iff (decimalRatio_pos 1 _) hd, decimalRatio_div, not_le, Nat.cast_one,
          one_mul] at hless
        exact hless

/-- The steps below a number on a grid with `count` digits. -/
theorem stepsBelow_lt (x : Binary64) (count : Nat) :
    stepsBelow x.ratio (pointOf x - count) < 10 ^ count := by
  have hle := (stepsBelow_le x (pointOf x - count)).trans_lt (value_lt_pow_pointOf x)
  rw [← lt_div_iff₀ (by positivity), ← zpow_sub₀ (by norm_num), sub_sub_cancel, zpow_natCast] at hle
  exact_mod_cast hle

/-- The digits of a decimal are those of `n` but for zeros behind them, and it stands for `n * 10 ^ e`. -/
structure Writes (d : Digits) (n : Nat) (e : Int) : Prop where
  digits : ∃ zeros, digitText d.digits ++ List.replicate zeros '0' = Nat.toDigits 10 n
  point : d.point = e + digitCount n

/-- A decimal that the search comes to: zero, or one of a grid. -/
inductive Found (x : Binary64) : Digits → Prop where
  | zero : Found x ⟨[0], 1⟩
  | grid {d : Digits} {n count : Nat} (hcount : count ≤ 17)
      (hn : onGrid? x (pointOf x - count) = some n) (hd : Writes d n (pointOf x - count)) : Found x d

theorem digitText_append (a b : List Nat) : digitText (a ++ b) = digitText a ++ digitText b :=
  List.map_append

/-- The digits of a number are written as they were. -/
theorem digitText_toDigits (n : Nat) :
    digitText ((Nat.toDigits 10 n).map fun c => c.toNat - 48) = Nat.toDigits 10 n := by
  rw [digitText, List.map_map]
  refine List.map_congr_left (fun c hc => ?_) |>.trans (List.map_id _)
  have hdigit := Nat.isDigit_of_mem_toDigits (by decide) (by decide) hc
  simp only [Char.isDigit, Bool.and_eq_true, decide_eq_true_eq] at hdigit
  have hle : 48 ≤ c.toNat := hdigit.1
  rw [Function.comp_apply, Nat.add_sub_cancel' hle, Char.ofNat_toNat, id_eq]

theorem digitText_replicate (k : Nat) :
    digitText (List.replicate k 0) = List.replicate k '0' :=
  List.map_replicate

/-- Digits are what is left without the zeros at their end, and these zeros. -/
theorem exists_zeros (digits : List Nat) :
    ∃ zeros, (digits.reverse.dropWhile (· == 0)).reverse ++ List.replicate zeros 0 = digits := by
  obtain ⟨zeros, hzeros⟩ : ∃ zeros, digits.reverse.takeWhile (· == 0) = List.replicate zeros 0 := by
    refine ⟨_, List.eq_replicate_of_mem fun d hd => ?_⟩
    have hzero := List.mem_takeWhile_imp hd
    exact beq_iff_eq.mp hzero
  refine ⟨zeros, ?_⟩
  calc (digits.reverse.dropWhile (· == 0)).reverse ++ List.replicate zeros 0
      = (digits.reverse.takeWhile (· == 0) ++ digits.reverse.dropWhile (· == 0)).reverse := by
        rw [hzeros, List.reverse_append, List.reverse_replicate]
    _ = digits := by rw [List.takeWhile_append_dropWhile, List.reverse_reverse]

theorem found_search (x : Binary64) {fuel count : Nat} (h : fuel + count ≤ 18) :
    Found x (search x (pointOf x) fuel count) := by
  induction fuel generalizing count with
  | zero => exact .zero
  | succ fuel ih =>
      rw [search]
      split
      · next n hn =>
          refine .grid (by omega) hn ⟨?_, ?_⟩
          · obtain ⟨zeros, hzeros⟩ := exists_zeros ((Nat.toDigits 10 n).map fun c => c.toNat - 48)
            refine ⟨zeros, ?_⟩
            have htext := congrArg digitText hzeros
            rw [digitText_append, digitText_toDigits] at htext
            rwa [digitText_replicate] at htext
          · simp [digitCount]
      · exact ih (by omega)

theorem found_shortest (x : Binary64) : Found x (shortest x) := by
  rw [shortest]
  split
  · exact .zero
  · exact found_search x (Nat.le_refl _)

/-- The decimal of seventeen digits next to the bound is rounded to the largest number, but another one
is nearer to that. -/
theorem onGrid?_ne_of_near (hx : x.IsFinite) : onGrid? x 292 ≠ some 17976931348623158 := by
  intro h
  have hgap : (Nat.pow 2 53 - 2) * Nat.pow 2 971 < 17976931348623157 * Nat.pow 10 292 := by
    decide +kernel
  have hsteps : 17976931348623157 ≤ stepsBelow x.ratio 292 := by
    have hn := (onGrid?_eq_some h).1
    omega
  have hlow : ((17976931348623157 * Nat.pow 10 292 : Nat) : ℚ) ≤ x.value := by
    refine le_trans ?_ (stepsBelow_le x 292)
    rw [Nat.cast_mul, Nat.pow_eq, Nat.cast_pow]
    exact mul_le_mul_of_nonneg_right (Nat.cast_le.mpr hsteps) (by positivity)
  by_cases hlargest : x = ⟨Nat.pow 2 53 - 1, 971⟩
  · rw [hlargest] at h
    revert h
    decide +kernel
  · have hhigh : x.value ≤ (((Nat.pow 2 53 - 2) * Nat.pow 2 971 : Nat) : ℚ) := by
      refine (hx.value_le_of_ne hlargest).trans_eq ?_
      rw [Nat.cast_mul, Binary64.cast_pow_two 971]
      rfl
    exact absurd (Nat.cast_le.mp (hlow.trans hhigh)) (Nat.not_le.mpr hgap)

/-- What the digits of a number stand for. -/
structure InReach (x : Binary64) (n : Nat) (e : Int) : Prop where
  pos : 0 < n
  few : n ≤ 10 ^ 17
  small : (n : ℚ) * 10 ^ e < bound
  grid : onGrid? x e = some n

theorem inReach_of_onGrid? (hx : x.IsFinite) {count : Nat} (hcount : count ≤ 17)
    (h : onGrid? x (pointOf x - count) = some n) : InReach x n (pointOf x - count) := by
  obtain ⟨hn, hreads⟩ := onGrid?_eq_some h
  have hbelow := stepsBelow_lt x count
  have hpow : 10 ^ count ≤ 10 ^ 17 := Nat.pow_le_pow_right (by decide) hcount
  exact ⟨by omega, by omega, lt_bound_of_reads hx hreads, h⟩

end Localization.Decimal
