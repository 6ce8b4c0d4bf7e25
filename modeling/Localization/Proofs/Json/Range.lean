import Mathlib
import Localization.Proofs.Json.Float
import Localization.Proofs.OrderedMap

/-!
What reading a text can give: whole numbers of 64 bits and finite floats, members with each name once, and
a bounded number of open brackets.
-/

open Std.Do

set_option mvcgen.warning false

namespace Localization

/-- The numbers that fit. -/
def JsonNumber.InRange : JsonNumber → Prop
  | .natural n => n ≤ Json.Reader.maxNatural
  | .negative n => 0 < n ∧ n ≤ Nat.pow 2 63
  | .float _ x => x.IsFinite

namespace Json

/-- The values that a reader may give if at most `depth` brackets are open at once. -/
def InRange : Nat → Json → Prop
  | _, .null | _, .bool _ | _, .string _ => True
  | _, .number n => n.InRange
  | 0, .array _ | 0, .object _ => False
  | depth + 1, .array items => ∀ item ∈ items, item.InRange depth
  | depth + 1, .object members =>
    (members.map Prod.fst).Nodup ∧ ∀ m ∈ members, m.2.InRange depth

namespace Reader

variable {α β : Type} {r : Reader α} {P : α → Prop}

theorem spec_iff : ⦃⌜True⌝⦄ r ⦃⇓? a => ⌜P a⌝⦄ ↔ ∀ c a after, r c = .ok (a, after) → P a := by
  constructor
  · intro h c a after hrun
    have hc := h c trivial
    change (wp⟦r c⟧ (fun r => ⌜P r.1⌝, ExceptConds.true)).down at hc
    rw [hrun] at hc
    exact hc
  · intro h c _
    change (wp⟦r c⟧ (fun r => ⌜P r.1⌝, ExceptConds.true)).down
    cases hrun : r c with
    | error e => trivial
    | ok r => exact h c r.1 r.2 hrun

@[spec]
theorem refuse_spec (fault : Fault) : ⦃⌜True⌝⦄ (refuse fault : Reader α) ⦃⇓? a => ⌜P a⌝⦄ :=
  spec_iff.mpr fun c a after h => by simp [refuse] at h

@[spec]
theorem refuseNext_spec (fault : Fault) : ⦃⌜True⌝⦄ (refuseNext fault : Reader α) ⦃⇓? a => ⌜P a⌝⦄ :=
  spec_iff.mpr fun c a after h => by
    unfold refuseNext at h
    split at h <;> simp at h

theorem any_spec (r : Reader α) : ⦃⌜True⌝⦄ r ⦃⇓? _ => ⌜True⌝⦄ :=
  spec_iff.mpr fun _ _ _ _ => trivial

@[spec]
theorem unit_spec (r : Reader Unit) : ⦃⌜True⌝⦄ r ⦃⇓? _ => ⌜True⌝⦄ := any_spec r

@[spec]
theorem bool_spec (r : Reader Bool) : ⦃⌜True⌝⦄ r ⦃⇓? _ => ⌜True⌝⦄ := any_spec r

@[spec]
theorem char_spec (r : Reader (Option Char)) : ⦃⌜True⌝⦄ r ⦃⇓? _ => ⌜True⌝⦄ := any_spec r

@[spec]
theorem chars_spec (r : Reader (List Char)) : ⦃⌜True⌝⦄ r ⦃⇓? _ => ⌜True⌝⦄ := any_spec r

@[spec]
theorem string_spec (r : Reader String) : ⦃⌜True⌝⦄ r ⦃⇓? _ => ⌜True⌝⦄ := any_spec r

/-! ## Numbers -/

@[spec]
theorem float_spec (isNegative : Bool) (n : Nat) (e : Int) :
    ⦃⌜True⌝⦄ float isNegative n e ⦃⇓? x => ⌜x.InRange⌝⦄ := by
  mvcgen [float]
  exact isFinite_of_floatOf? ‹floatOf? n e = some _›

@[spec]
theorem exponent_spec (isNegative : Bool) (n : Nat) (e : Int) :
    ⦃⌜True⌝⦄ exponent isNegative n e ⦃⇓? x => ⌜x.InRange⌝⦄ := by
  mvcgen [exponent]
  all_goals exact ⟨by decide, by decide⟩

@[spec]
theorem fraction_spec (isNegative : Bool) (n : Nat) (e : Int) :
    ⦃⌜True⌝⦄ fraction isNegative n e ⦃⇓? x => ⌜x.InRange⌝⦄ := by
  mvcgen [fraction]

theorem appendDigits_le {n : Nat} (h : n ≤ maxNatural) (ds : List Char) :
    (appendDigits n ds).1 ≤ maxNatural := by
  induction ds generalizing n with
  | nil => exact h
  | cons c ds ih =>
      rw [appendDigits]
      split
      · exact h
      · next hfits => exact ih (Nat.not_lt.mp hfits)

@[spec]
theorem number_spec (isNegative : Bool) :
    ⦃⌜True⌝⦄ number isNegative ⦃⇓? x => ⌜x.InRange⌝⦄ := by
  have hnatural : ∀ (c : Char) (ds : List Char),
      (JsonNumber.natural (appendDigits (c.toNat - 48) ds).1).InRange := by
    intro c ds
    have hc : c.toNat < Nat.pow 2 32 := c.val.toNat_lt
    have hpow : Nat.pow 2 32 ≤ maxNatural := by decide
    exact appendDigits_le (by omega) ds
  have hnegative : ∀ n : Nat, ¬(decide (n = 0) || decide (Nat.pow 2 63 < n)) = true →
      (JsonNumber.negative n).InRange := by
    intro n h
    simp only [Bool.or_eq_true, decide_eq_true_eq, not_or, Nat.not_lt] at h
    exact ⟨Nat.pos_of_ne_zero h.1, h.2⟩
  mvcgen [number]
  all_goals first | exact hnatural _ _ | exact hnegative _ ‹_›

/-! ## Values -/

theorem items_spec {item : Reader α} (hitem : ⦃⌜True⌝⦄ item ⦃⇓? a => ⌜P a⌝⦄) :
    ⦃⌜True⌝⦄ items item ⦃⇓? list => ⌜∀ a ∈ list, P a⌝⦄ := by
  have hloop : ∀ (fuel : Nat) (isFirst : Bool),
      ⦃⌜True⌝⦄ items.loop item isFirst fuel ⦃⇓? list => ⌜∀ a ∈ list, P a⌝⦄ := by
    intro fuel
    induction fuel with
    | zero =>
        intro isFirst
        exact refuse_spec .arrayUnclosed
    | succ fuel ih =>
        intro isFirst
        mvcgen [items.loop, hitem, ih]
        all_goals simp_all
  exact spec_iff.mpr fun c => spec_iff.mp (hloop _ true) c

theorem members_spec {start : α} {member : String → α → Reader α} (hstart : P start)
    (hmember : ∀ name a, P a → ⦃⌜True⌝⦄ member name a ⦃⇓? b => ⌜P b⌝⦄) :
    ⦃⌜True⌝⦄ members start member ⦃⇓? a => ⌜P a⌝⦄ := by
  have hloop : ∀ (fuel : Nat) (isFirst : Bool) (a : α), P a →
      ⦃⌜True⌝⦄ members.loop member isFirst a fuel ⦃⇓? b => ⌜P b⌝⦄ := by
    intro fuel
    induction fuel with
    | zero =>
        intro isFirst a _
        exact refuse_spec .objectUnclosed
    | succ fuel ih =>
        intro isFirst a ha
        mvcgen [members.loop, hmember, ih]
        all_goals simp_all
  exact spec_iff.mpr fun c => spec_iff.mp (hloop _ true start hstart) c

/-- The members that were read so far: each name stands once, and the values are in range. -/
def MembersInRange (depth : Nat) (m : OrderedMap Json) : Prop :=
  m.keys.Nodup ∧ ∀ e ∈ m.entries, e.2.InRange depth

theorem MembersInRange.insert {depth : Nat} {m : OrderedMap Json} (h : MembersInRange depth m)
    (name : String) {j : Json} (hj : j.InRange depth) : MembersInRange depth (m.insert name j) := by
  refine ⟨OrderedMap.nodup_keys_insert h.1 name j, ?_⟩
  intro e he
  rcases OrderedMap.mem_insertEntry he with rfl | hold
  · exact hj
  · exact h.2 e hold

theorem value_spec (depth : Nat) : ⦃⌜True⌝⦄ value depth ⦃⇓? j => ⌜j.InRange depth⌝⦄ := by
  induction depth with
  | zero =>
      mvcgen [value, valueAround]
  | succ depth ih =>
      have hitems := items_spec ih
      have hmembers : ⦃⌜True⌝⦄
          members (OrderedMap.empty : OrderedMap Json) (fun name m => do
            colon
            let v ← value depth
            return m.insert name v)
          ⦃⇓? m => ⌜MembersInRange depth m⌝⦄ := by
        apply members_spec
        · exact ⟨List.nodup_nil, by simp [OrderedMap.empty]⟩
        · intro name m hm
          mvcgen [ih]
          next hj => exact hm.insert name hj
      mvcgen [value, valueAround, hitems, hmembers]

theorem of_run_eq_ok {text : List Char} {a : α} (hr : ⦃⌜True⌝⦄ r ⦃⇓? a => ⌜P a⌝⦄)
    (h : run r text = .ok a) : P a := by
  let whole : Reader α := do
    let a ← r
    endOfText
    return a
  have hwhole : ⦃⌜True⌝⦄ whole ⦃⇓? a => ⌜P a⌝⦄ := by
    mvcgen [whole, hr]
  change (whole ⟨text, 1, 0⟩ >>= fun p => Except.ok p.1) = .ok a at h
  cases hrun : whole ⟨text, 1, 0⟩ with
  | error e =>
      rw [hrun] at h
      contradiction
  | ok p =>
      rw [hrun] at h
      obtain rfl : p.1 = a := Except.ok.inj h
      exact spec_iff.mp hwhole _ p.1 p.2 hrun

end Reader

/-- A text that is read gives a value in range. -/
theorem inRange_of_parse? {text : List Char} {j : Json} (h : parse? text = .ok j) :
    j.InRange Reader.depthLimit :=
  Reader.of_run_eq_ok (Reader.value_spec Reader.depthLimit) h

end Json

end Localization
