import Localization.Proofs.Decimal.Shortest
import Localization.Proofs.Json.Float
import Localization.Proofs.Json.Written

/-!
Reading floats in their written form. Every float that is written is read again, although its last bit
may be another one. Main statement: `exists_reads_text`.
-/

namespace Localization.Json.Reader

open Decimal (Digits digitText positional scientific)

variable {isNegative : Bool} {n value : Nat} {e : Int} {ds run rest left : List Char} {c : Char}
  {a : JsonNumber} {x : Binary64}

theorem reads_float {y : Binary64} (h : floatOf? n e = some y) (rest : List Char) :
    Reads (float isNegative n e) rest (.float isNegative y) rest := by
  rw [float, h]
  exact reads_pure _ rest

theorem not_isDigit_of_stops (hrest : Stops rest) : ∀ d ∈ rest.head?, isDigit d = false := by
  intro d hd
  rcases hrest d hd with rfl | rfl
  · rfl
  · rfl

/-- Digits in front of a point or an exponent are read as their number. -/
theorem reads_number_of_next (hdigits : ∀ d ∈ c :: run, isDigit d = true)
    (hzero : c = '0' → run = []) (hvalue : Nat.ofDigitChars 10 (c :: run) 0 ≤ maxNatural)
    (hnext : (∃ text, rest = '.' :: text) ∧
        Reads (fraction isNegative (Nat.ofDigitChars 10 (c :: run) 0) (0 : Nat)) rest a left ∨
      (∃ text, rest = 'e' :: text) ∧
        Reads (exponent isNegative (Nat.ofDigitChars 10 (c :: run) 0) (0 : Nat)) rest a left) :
    Reads (number isNegative) (c :: (run ++ rest)) a left := by
  have hsplit : Nat.ofDigitChars 10 (c :: run) 0 = Nat.ofDigitChars 10 run (c.toNat - 48) := by
    rw [Nat.ofDigitChars_cons, Nat.mul_zero, Nat.zero_add]
    rfl
  rw [hsplit] at hvalue hnext
  have hnodigit : ∀ d ∈ rest.head?, isDigit d = false := by
    intro d hd
    rcases hnext with ⟨⟨text, rfl⟩, -⟩ | ⟨⟨text, rfl⟩, -⟩
    · obtain rfl := Option.some.inj hd
      rfl
    · obtain rfl := Option.some.inj hd
      rfl
  have hany : rest.head?.any isDigit = false := by
    cases h : rest.head? with
    | none => rfl
    | some d => exact hnodigit d h
  refine (reads_peek? _).bind ?_
  simp only [List.head?_cons, hdigits c List.mem_cons_self, Bool.not_true, Bool.false_eq_true,
    if_false]
  refine (reads_bump c _).bind ?_
  split
  case' isTrue hc =>
    obtain rfl := hzero hc
    refine (reads_peek? rest).bind ?_
    rw [hany, if_neg Bool.false_ne_true]
    refine (reads_pure [] rest).bind ?_
  case' isFalse hc =>
    refine (reads_digits (fun d hd => hdigits d (List.mem_cons_of_mem c hd)) hnodigit).bind ?_
  all_goals
    rw [appendDigits_eq hvalue]
    refine (reads_peek? rest).bind ?_
    rcases hnext with ⟨⟨text, rfl⟩, h⟩ | ⟨⟨text, rfl⟩, h⟩
    · exact h
    · exact h

/-- Digits behind a point are read with those in front of it. -/
theorem reads_fraction (hdigits : ∀ d ∈ run, isDigit d = true) (hrun : run ≠ [])
    (hvalue : Nat.ofDigitChars 10 run n ≤ maxNatural)
    (hnext : Stops rest ∧
        Reads (float isNegative (Nat.ofDigitChars 10 run n) (e - run.length)) rest a left ∨
      (∃ text, rest = 'e' :: text) ∧
        Reads (exponent isNegative (Nat.ofDigitChars 10 run n) (e - run.length)) rest a left) :
    Reads (fraction isNegative n e) ('.' :: (run ++ rest)) a left := by
  have hnodigit : ∀ d ∈ rest.head?, isDigit d = false := by
    rcases hnext with ⟨hstops, -⟩ | ⟨⟨text, rfl⟩, -⟩
    · exact not_isDigit_of_stops hstops
    · intro d hd
      obtain rfl := Option.some.inj hd
      rfl
  refine (reads_bump _ _).bind ((reads_digits hdigits hnodigit).bind ?_)
  rw [appendDigits_eq hvalue]
  have hempty : run.isEmpty = false := List.isEmpty_eq_false_iff.mpr hrun
  simp only [hempty, Bool.false_eq_true, if_false]
  refine (reads_peek? rest).bind ?_
  rcases hnext with ⟨hstops, h⟩ | ⟨⟨text, rfl⟩, h⟩
  · split
    · next hhead => exact absurd (hstops _ hhead) (by decide)
    · next hhead => exact absurd (hstops _ hhead) (by decide)
    · exact h
  · exact h

theorem foldl_eq_ofDigitChars (ds : List Char) (n : Nat) :
    ds.foldl (fun v d => 10 * v + (d.toNat - 48)) n = Nat.ofDigitChars 10 ds n := by
  rw [Nat.ofDigitChars_eq_foldl]
  rfl

theorem foldl_toDigits (k : Nat) :
    (Nat.toDigits 10 k).foldl (fun v d => 10 * v + (d.toNat - 48)) 0 = k :=
  (foldl_eq_ofDigitChars _ _).trans Nat.ofDigitChars_ten_toDigits

theorem exists_head?_toDigits (k : Nat) (rest : List Char) :
    ∃ c, (Nat.toDigits 10 k ++ rest).head? = some c ∧ isDigit c = true := by
  obtain ⟨c, more, hdigits⟩ := List.exists_cons_of_ne_nil (Nat.toDigits_ne_nil (n := k) (b := 10))
  refine ⟨c, by rw [hdigits]; rfl, isDigit_of_mem_toDigits (n := k) ?_⟩
  rw [hdigits]
  exact List.mem_cons_self

/-- A signed exponent moves the point. -/
theorem reads_exponent (isMinus : Bool) {k : Nat} {y : Binary64} (hrest : Stops rest)
    (hk : k ≤ maxExponent) (hy : floatOf? n (if isMinus then e - k else e + k) = some y) :
    Reads (exponent isNegative n e)
      ('e' :: (if isMinus then '-' else '+') :: (Nat.toDigits 10 k ++ rest)) (.float isNegative y)
      rest := by
  obtain ⟨c, hhead, hc⟩ := exists_head?_toDigits k rest
  refine (reads_bump _ _).bind ((reads_peek? _).bind ?_)
  cases isMinus
  all_goals
    refine (reads_bump _ _).bind ((reads_pure _ _).bind ((reads_peek? _).bind ?_))
    rw [hhead]
    simp only [hc, if_true]
    refine (reads_digits (fun d => isDigit_of_mem_toDigits) (not_isDigit_of_stops hrest)).bind ?_
    rw [foldl_toDigits, if_neg (Nat.not_lt.mpr hk)]
    exact reads_float hy rest

/-- With an exponent that is too small for that the float is zero. -/
theorem reads_exponent_of_large {k : Nat} (hrest : Stops rest) (hk : maxExponent < k) :
    Reads (exponent isNegative n e) ('e' :: '-' :: (Nat.toDigits 10 k ++ rest))
      (.float isNegative ⟨0, -1074⟩) rest := by
  obtain ⟨c, hhead, hc⟩ := exists_head?_toDigits k rest
  refine (reads_bump _ _).bind ((reads_peek? _).bind ?_)
  refine (reads_bump _ _).bind ((reads_pure _ _).bind ((reads_peek? _).bind ?_))
  rw [hhead]
  simp only [hc, if_true]
  refine (reads_digits (fun d => isDigit_of_mem_toDigits) (not_isDigit_of_stops hrest)).bind ?_
  rw [foldl_toDigits, if_pos hk]
  simp only [Bool.not_true, Bool.and_false, Bool.false_eq_true, if_false]
  exact reads_pure _ rest

/-! ## Decimals -/

theorem ofDigitChars_lt (hds : ∀ d ∈ ds, isDigit d = true) (n : Nat) :
    Nat.ofDigitChars 10 ds n < (n + 1) * 10 ^ ds.length := by
  induction ds generalizing n with
  | nil => simp
  | cons d ds ih =>
      have hd := hds d List.mem_cons_self
      simp only [isDigit, Bool.and_eq_true, decide_eq_true_eq] at hd
      have hzero : '0'.toNat = 48 := rfl
      rw [Nat.ofDigitChars_cons, hzero, List.length_cons]
      calc Nat.ofDigitChars 10 ds (10 * n + (d.toNat - 48))
          < (10 * n + (d.toNat - 48) + 1) * 10 ^ ds.length :=
            ih (fun c hc => hds c (List.mem_cons_of_mem d hc)) _
        _ ≤ ((n + 1) * 10) * 10 ^ ds.length := Nat.mul_le_mul_right _ (by omega)
        _ = (n + 1) * 10 ^ (ds.length + 1) := by rw [Nat.mul_assoc, Nat.pow_succ']

/-- Digits on both sides of a point are read as a float. -/
theorem exists_reads_point (isNegative : Bool) (hdigits : ∀ d ∈ c :: ds, isDigit d = true)
    (hzero : c = '0' → ds = []) (hrun : ∀ d ∈ run, isDigit d = true) (hne : run ≠ [])
    (hvalue : Nat.ofDigitChars 10 (c :: ds ++ run) 0 ≤ maxNatural) :
    ∃ y, ∀ rest, Stops rest →
      Reads (number isNegative) (c :: ds ++ '.' :: (run ++ rest)) (.float isNegative y) rest := by
  rw [Nat.ofDigitChars_append] at hvalue
  have hlimit : maxNatural < limit := by decide +kernel
  obtain ⟨x, hx, -⟩ := exists_ofNat? (hvalue.trans_lt hlimit)
  obtain ⟨y, hy, -⟩ := exists_floatOf?_of_nonpos (e := ((0 : Nat) : Int) - run.length) hx (by omega)
  refine ⟨y, fun rest hrest => ?_⟩
  refine reads_number_of_next hdigits hzero ((le_ofDigitChars run _).trans hvalue) (.inl ⟨⟨_, rfl⟩, ?_⟩)
  exact reads_fraction hrun hne hvalue (.inl ⟨hrest, reads_float hy rest⟩)

/-- The digits of a decimal other than zero, and the zeros that are left out. -/
structure Digital (d : Digits) (n : Nat) (c : Char) (ds : List Char) (zeros : Nat) : Prop where
  text : digitText d.digits = c :: ds
  nonzero : c ≠ '0'
  digits : ∀ d ∈ c :: ds, isDigit d = true
  value : Nat.ofDigitChars 10 (c :: ds) 0 * 10 ^ zeros = n
  length : ds.length + 1 + zeros = Decimal.digitCount n

theorem exists_digital {d : Digits} (h : Decimal.Writes d n e) (hn : 0 < n) :
    ∃ c ds zeros, Digital d n c ds zeros := by
  obtain ⟨zeros, hzeros⟩ := h.digits
  have hhead := head?_toDigits_ne_zero hn
  have hvalue := Nat.ofDigitChars_ten_toDigits (n := n)
  have hlength := congrArg List.length hzeros
  have hall : ∀ d ∈ Nat.toDigits 10 n, isDigit d = true := fun d => isDigit_of_mem_toDigits
  rw [← hzeros] at hhead hvalue hall
  cases htext : digitText d.digits with
  | nil =>
      rw [htext, List.nil_append, Nat.ofDigitChars_replicate_zero, Nat.mul_zero] at hvalue
      omega
  | cons c ds =>
      rw [htext] at hhead hvalue hall hlength
      refine ⟨c, ds, zeros, htext, fun hc => hhead (congrArg some hc), ?_, ?_, ?_⟩
      · exact fun d hd => hall d (List.mem_append_left _ hd)
      · rw [Nat.ofDigitChars_append, Nat.ofDigitChars_replicate_zero, Nat.mul_comm] at hvalue
        exact hvalue
      · rw [List.length_append, List.length_replicate, List.length_cons] at hlength
        exact hlength

section

variable {d : Digits} {zeros : Nat} (h : Digital d n c ds zeros)

include h

theorem Digital.length_digits : d.digits.length = ds.length + 1 := by
  have hlength := congrArg List.length h.text
  rwa [digitText, List.length_map] at hlength

theorem Digital.value_le (hn : n ≤ 10 ^ 17) : Nat.ofDigitChars 10 (c :: ds) 0 ≤ 10 ^ 17 :=
  (Nat.le_mul_of_pos_right _ (Nat.pow_pos (by decide))).trans (h.value.trans_le hn)

/-- A decimal with its point near the digits is read as a float. -/
theorem Digital.exists_reads_positional (isNegative : Bool) (hn : n ≤ 10 ^ 17) (hpoint : d.point ≤ 16) :
    ∃ y, ∀ rest, Stops rest →
      Reads (number isNegative) (positional d ++ rest) (.float isNegative y) rest := by
  have hle := h.value_le hn
  have hmax : 10 ^ 17 ≤ maxNatural := by decide
  have hzero : ∀ d ∈ ['0'], isDigit d = true := List.forall_mem_singleton.mpr rfl
  have hzeros : ∀ (k : Nat), ∀ d ∈ List.replicate k '0', isDigit d = true := fun k d hd => by
    rw [List.eq_of_mem_replicate hd]
    rfl
  have hlength := h.length_digits
  -- Only the digits behind the point are left when it stands in front of them.
  have hleft : ∀ k : Nat, ∃ y, ∀ rest, Stops rest → Reads (number isNegative)
      ('0' :: [] ++ '.' :: ((List.replicate k '0' ++ c :: ds) ++ rest)) (.float isNegative y) rest := by
    intro k
    refine exists_reads_point isNegative hzero (fun _ => rfl) ?_ (by simp) ?_
    · intro b hb
      rcases List.mem_append.mp hb with hb | hb
      · exact hzeros k b hb
      · exact h.digits b hb
    · change Nat.ofDigitChars 10 (List.replicate (k + 1) '0' ++ c :: ds) 0 ≤ maxNatural
      rw [Nat.ofDigitChars_append, Nat.ofDigitChars_replicate_zero, Nat.mul_zero]
      exact hle.trans hmax
  unfold positional
  split
  · obtain ⟨y, hy⟩ := hleft 0
    refine ⟨y, fun rest hrest => ?_⟩
    rw [h.text]
    exact hy rest hrest
  · next p hp =>
      split
      · next hfew =>
          have hall : ∀ b ∈ c :: (ds ++ List.replicate (p + 1 - d.digits.length) '0'),
              isDigit b = true := by
            rw [← List.cons_append]
            intro b hb
            rcases List.mem_append.mp hb with hb | hb
            · exact h.digits b hb
            · exact hzeros _ b hb
          have hvalue : Nat.ofDigitChars 10
              (c :: (ds ++ List.replicate (p + 1 - d.digits.length) '0') ++ ['0']) 0 ≤ maxNatural := by
            have hlt := ofDigitChars_lt (List.forall_mem_append.mpr ⟨hall, hzero⟩) 0
            have hp' : p + 2 ≤ 17 := by
              rw [hp, Int.ofNat_eq_natCast] at hpoint
              omega
            have hpow := Nat.pow_le_pow_right (show 0 < 10 by decide) hp'
            simp only [List.length_append, List.length_cons, List.length_replicate, List.length_nil]
              at hlt
            rw [show ds.length + (p + 1 - d.digits.length) + 1 + (0 + 1) = p + 2 by omega,
              Nat.zero_add, Nat.one_mul] at hlt
            exact hlt.le.trans (hpow.trans hmax)
          obtain ⟨y, hy⟩ := exists_reads_point isNegative hall (fun hc => absurd hc h.nonzero) hzero
            (List.cons_ne_nil _ _) hvalue
          refine ⟨y, fun rest hrest => ?_⟩
          have hread := hy rest hrest
          rw [h.text]
          simpa using hread
      · next hmany =>
          have hall : ∀ d ∈ c :: ds.take p, isDigit d = true := fun d hd =>
            h.digits d (List.mem_of_mem_take (List.take_succ_cons ▸ hd))
          have hrun : ∀ d ∈ ds.drop p, isDigit d = true := fun d hd =>
            h.digits d (List.mem_cons_of_mem c (List.mem_of_mem_drop hd))
          have hne : ds.drop p ≠ [] := by
            rw [ne_eq, List.drop_eq_nil_iff]
            omega
          have hvalue : Nat.ofDigitChars 10 (c :: ds.take p ++ ds.drop p) 0 ≤ maxNatural := by
            rw [List.cons_append, List.take_append_drop]
            exact hle.trans hmax
          obtain ⟨y, hy⟩ := exists_reads_point isNegative hall (fun hc => absurd hc h.nonzero) hrun hne
            hvalue
          refine ⟨y, fun rest hrest => ?_⟩
          have hread := hy rest hrest
          have htake : digitText (d.digits.take (p + 1)) = c :: ds.take p := by
            rw [digitText, List.map_take, ← digitText, h.text, List.take_succ_cons]
          have hdrop : digitText (d.digits.drop (p + 1)) = ds.drop p := by
            rw [digitText, List.map_drop, ← digitText, h.text, List.drop_succ_cons]
          rw [htake, hdrop]
          simpa using hread
  · next p hp =>
      obtain ⟨y, hy⟩ := hleft (p + 1)
      refine ⟨y, fun rest hrest => ?_⟩
      have hread := hy rest hrest
      rw [h.text]
      simpa using hread

end

theorem lt_of_mul_pow_lt {k : Nat} (hn : 0 < n) (h : n * Nat.pow 10 k < limit) : k < 309 := by
  by_contra hk
  have hpow : ∀ l, l ≤ k → Nat.pow 10 l ≤ Nat.pow 10 k := fun l => Nat.pow_le_pow_right (by decide)
  have hlimit : limit < Nat.pow 10 309 := by decide +kernel
  have hle := (hpow 309 (Nat.not_lt.mp hk)).trans (Nat.le_mul_of_pos_left _ hn)
  exact absurd (hlimit.trans_le hle) (Nat.not_lt.mpr h.le)

section

variable {d : Digits} {zeros : Nat} (h : Digital d n c ds zeros) (hreach : Decimal.InReach x n e)

include h hreach

theorem Digital.value_pos : 0 < Nat.ofDigitChars 10 (c :: ds) 0 := by
  refine Nat.pos_of_ne_zero fun hzero => ?_
  have hn := hreach.pos
  rw [← h.value, hzero, Nat.zero_mul] at hn
  exact absurd hn (Nat.lt_irrefl 0)

theorem Digital.mul_pow_lt {k : Nat} (hk : e + zeros = k) :
    Nat.ofDigitChars 10 (c :: ds) 0 * Nat.pow 10 k < limit := by
  have hsmall := hreach.small
  rw [← h.value, ← cast_limit, Nat.cast_mul, Nat.cast_pow, Nat.cast_ofNat, ← zpow_natCast, mul_assoc,
    ← zpow_add₀ (by norm_num), Int.add_comm, hk, zpow_natCast] at hsmall
  exact_mod_cast hsmall

theorem Digital.place_lt : e + zeros < 309 := by
  rcases Int.lt_or_le (e + zeros) 0 with hneg | hpos
  · omega
  · obtain ⟨k, hk⟩ := Int.eq_ofNat_of_zero_le hpos
    have hlt := lt_of_mul_pow_lt (h.value_pos hreach) (h.mul_pow_lt hreach hk)
    omega

/-- The digits of a decimal that the search has found have a float at their place. -/
theorem Digital.exists_floatOf? (hx : x.IsFinite) :
    ∃ y, floatOf? (Nat.ofDigitChars 10 (c :: ds) 0) (e + zeros) = some y := by
  have hle := h.value_le hreach.few
  rcases Int.lt_or_le 0 (e + zeros) with hpos | hpos
  · obtain ⟨k, hk⟩ := Int.eq_ofNat_of_zero_le hpos.le
    have hplace := h.place_lt hreach
    rw [hk] at hplace ⊢
    refine exists_floatOf?_of_lt_limit hle (h.mul_pow_lt hreach hk) ?_ (by omega)
    rintro ⟨hlost, rfl⟩
    have hvalue := h.value
    rw [hlost] at hvalue
    -- With further zeros there would be too many digits.
    rcases Nat.eq_zero_or_pos zeros with rfl | hzeros
    · obtain rfl : e = 292 := by omega
      have hgrid := hreach.grid
      rw [← hvalue, Nat.pow_zero, Nat.mul_one] at hgrid
      exact Decimal.onGrid?_ne_of_near hx hgrid
    · have hten : 10 ^ 1 ≤ 10 ^ zeros := Nat.pow_le_pow_right (by decide) hzeros
      have hmany := Nat.mul_le_mul_left lost hten
      have hfew := hreach.few
      rw [← hvalue] at hfew
      simp only [lost] at hmany hfew
      omega
  · obtain ⟨x', hx', -⟩ := exists_ofNat? (hle.trans_lt (by decide +kernel))
    obtain ⟨y, hy, -⟩ := exists_floatOf?_of_nonpos hx' hpos
    exact ⟨y, hy⟩

theorem Digital.length_le : ds.length ≤ 17 := by
  have hlength := h.length
  have hfew : n < 10 ^ 18 := hreach.few.trans_lt (by decide)
  have hcount : Decimal.digitCount n ≤ 18 :=
    (Nat.length_toDigits_le_iff (by decide) (by decide)).mpr hfew
  omega

/-- A decimal with an exponent is read as a float. -/
theorem Digital.exists_reads_scientific (isNegative : Bool) (hx : x.IsFinite)
    (hpoint : d.point = e + Decimal.digitCount n) :
    ∃ y, ∀ rest, Stops rest →
      Reads (number isNegative) (scientific d ++ rest) (.float isNegative y) rest := by
  have hlength := h.length
  have hfew := h.length_le hreach
  have hfits : Nat.ofDigitChars 10 (c :: ds) 0 ≤ maxNatural :=
    (h.value_le hreach.few).trans (by decide)
  obtain ⟨y₀, hy₀⟩ := h.exists_floatOf? hreach hx
  have hplace := h.place_lt hreach
  -- The digits behind the point count for the exponent.
  obtain ⟨y, hy⟩ : ∃ y, ∀ rest, Stops rest →
      Reads (exponent isNegative (Nat.ofDigitChars 10 (c :: ds) 0) ((0 : Nat) - ds.length : Int))
        ('e' :: (if d.point - 1 < 0 then '-' else '+') ::
          (Nat.toDigits 10 (d.point - 1).natAbs ++ rest)) (.float isNegative y) rest := by
    rcases Int.lt_or_le (d.point - 1) 0 with hneg | hpos
    · rw [if_pos hneg]
      by_cases hsmall : (d.point - 1).natAbs ≤ maxExponent
      · refine ⟨y₀, fun rest hrest => reads_exponent true hrest hsmall ?_⟩
        rw [if_pos rfl, ← hy₀]
        congr 1
        omega
      · exact ⟨_, fun rest hrest => reads_exponent_of_large hrest (Nat.not_le.mp hsmall)⟩
    · rw [if_neg (Int.not_lt.mpr hpos)]
      have hmax : 400 ≤ maxExponent := by decide
      refine ⟨y₀, fun rest hrest => reads_exponent false hrest (by omega) ?_⟩
      rw [if_neg Bool.false_ne_true, ← hy₀]
      congr 1
      omega
  refine ⟨y, fun rest hrest => ?_⟩
  have hread := hy rest hrest
  cases ds with
  | nil =>
      have htext : scientific d ++ rest = c :: ([] ++ 'e' :: (if d.point - 1 < 0 then '-' else '+') ::
          (Nat.toDigits 10 (d.point - 1).natAbs ++ rest)) := by
        simp [scientific, h.text]
      rw [htext]
      exact reads_number_of_next h.digits (fun _ => rfl) hfits (.inr ⟨⟨_, rfl⟩, hread⟩)
  | cons next more =>
      have htext : scientific d ++ rest = c :: ([] ++ '.' :: ((next :: more) ++
          'e' :: (if d.point - 1 < 0 then '-' else '+') ::
            (Nat.toDigits 10 (d.point - 1).natAbs ++ rest))) := by
        simp [scientific, h.text]
      have hsplit : Nat.ofDigitChars 10 (next :: more) (Nat.ofDigitChars 10 [c] 0) =
          Nat.ofDigitChars 10 (c :: next :: more) 0 := by
        rw [← Nat.ofDigitChars_append]
        rfl
      have hfront : ∀ b ∈ [c], isDigit b = true := fun b hb => h.digits b (by simp_all)
      rw [htext]
      rw [← hsplit] at hfits hread
      refine reads_number_of_next hfront (fun _ => rfl) ((le_ofDigitChars _ _).trans hfits)
        (.inl ⟨⟨_, rfl⟩, ?_⟩)
      exact reads_fraction (fun b hb => h.digits b (List.mem_cons_of_mem c hb)) (List.cons_ne_nil _ _)
        hfits (.inr ⟨⟨_, rfl⟩, hread⟩)

end

/-- The written form of a finite float is read as a float. -/
theorem exists_reads_text (isNegative : Bool) (hx : x.IsFinite) :
    ∃ y, ∀ rest, Stops rest →
      Reads (number isNegative) ((Decimal.text JsonNumber.floatFormat x).toList ++ rest)
        (.float isNegative y) rest := by
  rw [Decimal.text, String.toList_ofList]
  generalize hshortest : Decimal.shortest x = d
  have hfound := Decimal.found_shortest x
  rw [hshortest] at hfound
  cases hfound with
  | zero =>
      have hdigit : ∀ d ∈ ['0'], isDigit d = true := List.forall_mem_singleton.mpr rfl
      exact exists_reads_point isNegative hdigit (fun _ => rfl) hdigit (by decide) (by decide)
  | grid hcount hn hd =>
      have hreach := Decimal.inReach_of_onGrid? hx hcount hn
      obtain ⟨c, ds, zeros, hdigital⟩ := exists_digital hd hreach.pos
      split
      · next hnear =>
          obtain ⟨-, hright⟩ := Bool.and_eq_true_iff.mp hnear
          exact hdigital.exists_reads_positional isNegative hreach.few (of_decide_eq_true hright)
      · exact hdigital.exists_reads_scientific hreach isNegative hx hd.point

end Localization.Json.Reader
