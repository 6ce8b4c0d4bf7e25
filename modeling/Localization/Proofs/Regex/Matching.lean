import Localization.Regex.Basic
import Mathlib.Data.List.Basic

/-!
What a regular expression matches: a part of a text, between what stands in front of it and what stands
behind it. The search follows the places where matches can end. Main statement: `matchesIn_iff`, the search
finds out whether some part of a text matches.
-/

namespace Localization.Regex

/-- A part of a text, between what stands in front of it and what stands behind it, consists of any number
of parts that are meant. -/
inductive Repeats (meant : List Char → List Char → List Char → Prop) :
    List Char → List Char → List Char → Prop where
  | none {before after : List Char} : Repeats meant before [] after
  | more {before first second after : List Char} (h : Repeats meant before first (second ++ after))
      (hsecond : meant (before ++ first) second after) : Repeats meant before (first ++ second) after

/-- A part of a text matches, between what stands in front of it and what stands behind it. -/
def Matches : Regex → (before part after : List Char) → Prop
  | empty, _, part, _ => part = []
  | one s, _, part, _ => ∃ c, part = [c] ∧ s.contains c = true
  | assertion a word, before, part, after =>
    part = [] ∧ a.holds word before.getLast? after.head? = true
  | seq a b, before, part, after =>
    ∃ first second, part = first ++ second ∧ a.Matches before first (second ++ after) ∧
      b.Matches (before ++ first) second after
  | alt a b, before, part, after => a.Matches before part after ∨ b.Matches before part after
  | star r, before, part, after => Repeats r.Matches before part after

variable {text front back : List Char} {places others : Places}

/-! ## Places -/

theorem getElem?_join (ps qs : Places) (i : Nat) :
    (join ps qs)[i]? = some true ↔ ps[i]? = some true ∨ qs[i]? = some true := by
  fun_induction join ps qs generalizing i with
  | case1 p ps q qs ih =>
      cases i with
      | zero => simp
      | succ i => simpa using ih i
  | case2 qs => simp
  | case3 ps hne => simp

theorem length_join (h : places.length = others.length) : (join places others).length = places.length := by
  fun_induction join places others with
  | case1 p ps q qs ih => simpa using ih (by simpa using h)
  | case2 qs => simpa using h.symm
  | case3 ps hne => rfl

/-- Of the places that are not marked fewer are left, unless none was added. -/
theorem count_join (h : places.length = others.length) (hne : join places others ≠ places) :
    (join places others).count false < places.count false := by
  have hall : ∀ ps qs : Places, ps.length = qs.length → (join ps qs).count false ≤ ps.count false ∧
      (join ps qs ≠ ps → (join ps qs).count false < ps.count false) := by
    intro ps qs hlength
    fun_induction join ps qs with
    | case1 p ps q qs ih =>
        obtain ⟨hle, hlt⟩ := ih (by simpa using hlength)
        cases p <;> cases q <;> simp_all
        omega
    | case2 qs =>
        obtain rfl := List.length_eq_zero_iff.mp hlength.symm
        simp
    | case3 ps hcons => simp
  exact (hall places others h).2 hne

theorem getElem?_stepOver (s : CharSet) (text : List Char) (places : Places) (i : Nat) :
    (stepOver s text places)[i]? = some true ↔
      ∃ c, text[i]? = some c ∧ places[i]? = some true ∧ s.contains c = true := by
  induction text generalizing places i with
  | nil => simp [stepOver]
  | cons c text ih =>
      cases places with
      | nil => simp [stepOver]
      | cons p places =>
          cases i with
          | zero => simp [stepOver]
          | succ i => simpa [stepOver] using ih places i

theorem length_stepOver (s : CharSet) (h : places.length = text.length + 1) :
    (stepOver s text places).length = text.length := by
  induction text generalizing places with
  | nil => simp [stepOver]
  | cons c text ih =>
      obtain ⟨p, places, rfl⟩ := List.exists_cons_of_length_eq_add_one h
      simpa [stepOver] using ih (by simpa using h)

theorem getElem?_keep (a : Assertion) (word : CharSet) (before : Option Char) (front back : List Char)
    (places : Places) : (keep a word before (front ++ back) places)[front.length]? = some true ↔
      places[front.length]? = some true ∧ a.holds word (front.getLast?.or before) back.head? = true := by
  induction front generalizing before places with
  | nil =>
      cases places with
      | nil => simp [keep]
      | cons p places => cases back <;> simp [keep]
  | cons c front ih =>
      cases places with
      | nil => simp [keep]
      | cons p places =>
          have hlast : (c :: front).getLast?.or before = front.getLast?.or (some c) := by
            rw [List.getLast?_cons]
            cases front.getLast? <;> rfl
          rw [hlast]
          simpa [keep] using ih (some c) places

theorem length_keep (a : Assertion) (word : CharSet) (before : Option Char)
    (h : places.length = text.length + 1) : (keep a word before text places).length = text.length + 1 := by
  induction text generalizing before places with
  | nil =>
      obtain ⟨p, places, rfl⟩ := List.exists_cons_of_length_eq_add_one h
      simp [keep]
  | cons c text ih =>
      obtain ⟨p, places, rfl⟩ := List.exists_cons_of_length_eq_add_one h
      simpa [keep] using ih (some c) (by simpa using h)

/-! ## Repeated steps -/

section Closure

variable {step : Places → Places} {size : Nat}

theorem length_closure (hstep : ∀ ps : Places, ps.length = size → (step ps).length = size) (n : Nat)
    (h : places.length = size) : (closure step n places).length = size := by
  induction n generalizing places with
  | zero => exact h
  | succ n ih =>
      rw [closure]
      split
      · exact h
      · exact ih (by rw [length_join (h.trans (hstep places h).symm), h])

theorem getElem?_closure_of_getElem? (n : Nat) {i : Nat} (h : places[i]? = some true) :
    (closure step n places)[i]? = some true := by
  induction n generalizing places with
  | zero => exact h
  | succ n ih =>
      rw [closure]
      split
      · exact h
      · exact ih ((getElem?_join _ _ i).mpr (.inl h))

/-- What holds of the given places and goes on with each step holds of all that are reached. -/
theorem closure_induction (holds : Nat → Prop)
    (hlength : ∀ ps : Places, ps.length = size → (step ps).length = size)
    (hstep : ∀ ps : Places, ps.length = size → (∀ i, ps[i]? = some true → holds i) →
      ∀ i, (step ps)[i]? = some true → holds i)
    (n : Nat) (h : places.length = size) (hholds : ∀ i, places[i]? = some true → holds i) :
    ∀ i, (closure step n places)[i]? = some true → holds i := by
  induction n generalizing places with
  | zero => exact hholds
  | succ n ih =>
      rw [closure]
      split
      · exact hholds
      · refine ih (by rw [length_join (h.trans (hlength places h).symm), h]) fun i hi => ?_
        rcases (getElem?_join _ _ i).mp hi with hi | hi
        · exact hholds i hi
        · exact hstep places h hholds i hi

/-- No step leads on from the places that are reached. Each round marks a place more, so that there are
enough rounds if there are as many as places. -/
theorem getElem?_of_step_closure (hstep : ∀ ps : Places, ps.length = size → (step ps).length = size)
    {n : Nat} (h : places.length = size) (hrounds : places.count false ≤ n) {i : Nat}
    (hi : (step (closure step n places))[i]? = some true) : (closure step n places)[i]? = some true := by
  induction n generalizing places with
  | zero =>
      rw [closure] at hi ⊢
      obtain ⟨hlt, -⟩ := List.getElem?_eq_some_iff.mp hi
      rw [hstep places h, ← h] at hlt
      have hnone := List.count_eq_zero.mp (Nat.le_zero.mp hrounds)
      rw [List.getElem?_eq_getElem hlt, Option.some.injEq]
      by_contra hfalse
      exact hnone (Bool.eq_false_iff.mpr hfalse ▸ List.getElem_mem hlt)
  | succ n ih =>
      have hsame := h.trans (hstep places h).symm
      rw [closure] at hi ⊢
      split at hi
      · next heq =>
          rw [if_pos heq, ← eq_of_beq heq]
          exact (getElem?_join _ _ i).mpr (.inr hi)
      · next hne =>
          rw [if_neg hne]
          have hfewer := count_join hsame (by simpa using hne)
          exact ih (by rw [length_join hsame, h]) (by omega) hi

end Closure

theorem length_advance (r : Regex) (h : places.length = text.length + 1) :
    (r.advance text places).length = text.length + 1 := by
  induction r generalizing places with
  | empty => exact h
  | one s => simp [advance, length_stepOver s h]
  | assertion a word => exact length_keep a word none h
  | seq a b iha ihb => exact ihb (iha h)
  | alt a b iha ihb =>
      rw [advance, length_join ((iha h).trans (ihb h).symm)]
      exact iha h
  | star r ih => exact length_closure (fun ps hps => ih hps) _ h

/-! ## Matches -/

/-- A match that begins at one of the places ends between a front and a back of the text. -/
def EndsBetween (meant : List Char → List Char → List Char → Prop) (places : Places)
    (front back : List Char) : Prop :=
  ∃ before part, front = before ++ part ∧ places[before.length]? = some true ∧ meant before part back

/-- A repetition reaches the places that its rounds reach. -/
theorem getElem?_closure_iff {r : Regex} (hr : ∀ {front back : List Char} {places : Places},
      places.length = (front ++ back).length + 1 →
        ((r.advance (front ++ back) places)[front.length]? = some true ↔
          EndsBetween r.Matches places front back))
    (h : places.length = (front ++ back).length + 1) :
    (closure (r.advance (front ++ back)) ((front ++ back).length + 1) places)[front.length]? = some true ↔
      EndsBetween (Repeats r.Matches) places front back := by
  have hlength : ∀ ps : Places, ps.length = (front ++ back).length + 1 →
      (r.advance (front ++ back) ps).length = (front ++ back).length + 1 := fun ps hps => length_advance r hps
  have hrounds : places.count false ≤ (front ++ back).length + 1 := h ▸ List.count_le_length
  have hfinal := length_closure hlength ((front ++ back).length + 1) h
  generalize htext : front ++ back = text at *
  constructor
  · intro hmarked
    refine closure_induction (fun i => ∀ front back : List Char, front ++ back = text →
      front.length = i → EndsBetween (Repeats r.Matches) places front back) hlength ?_ _ h ?_ _ hmarked
      front back htext rfl
    · rintro ps hps hholds i hi front back rfl rfl
      obtain ⟨middle, second, rfl, hmiddle, hsecond⟩ := (hr hps).mp hi
      obtain ⟨before, first, rfl, hbefore, hfirst⟩ :=
        hholds middle.length hmiddle middle (second ++ back) (by simp) rfl
      exact ⟨before, first ++ second, by simp, hbefore, .more hfirst hsecond⟩
    · rintro i hi front back rfl rfl
      exact ⟨front, [], by simp, hi, .none⟩
  · rintro ⟨before, part, rfl, hbefore, hrepeats⟩
    induction hrepeats with
    | none => exact getElem?_closure_of_getElem? _ (by simpa using hbefore)
    | @more first second after hfirst hsecond ih =>
        have hreached := ih (by rw [← htext]; simp)
        refine getElem?_of_step_closure hlength h hrounds ?_
        rw [← htext] at hfinal ⊢
        refine (hr hfinal).mpr ⟨before ++ first, second, by simp, ?_, hsecond⟩
        rw [htext]
        exact hreached

theorem getElem?_advance (r : Regex) (h : places.length = (front ++ back).length + 1) :
    (r.advance (front ++ back) places)[front.length]? = some true ↔ EndsBetween r.Matches places front back := by
  induction r generalizing front back places with
  | empty => simp [advance, EndsBetween, Matches]
  | one s =>
      rw [advance]
      rcases List.eq_nil_or_concat front with rfl | ⟨init, c, rfl⟩
      · simp [EndsBetween, Matches]
      · rw [List.concat_eq_append, List.length_append, List.length_singleton, List.getElem?_cons_succ,
          getElem?_stepOver]
        constructor
        · rintro ⟨d, hd, hplace, hin⟩
          obtain rfl : c = d := by simpa using hd
          exact ⟨init, [c], rfl, hplace, c, rfl, hin⟩
        · rintro ⟨before, part, hfront, hplace, d, rfl, hin⟩
          obtain ⟨rfl, hd⟩ := List.append_inj' hfront rfl
          obtain rfl : c = d := by simpa using hd
          exact ⟨c, by simp, hplace, hin⟩
  | assertion a word =>
      rw [advance, getElem?_keep]
      constructor
      · rintro ⟨hplace, hholds⟩
        exact ⟨front, [], by simp, hplace, rfl, by simpa using hholds⟩
      · rintro ⟨before, part, rfl, hplace, rfl, hholds⟩
        exact ⟨by simpa using hplace, by simpa using hholds⟩
  | seq a b iha ihb =>
      rw [advance, ihb (length_advance a h)]
      constructor
      · rintro ⟨middle, second, rfl, hmiddle, hsecond⟩
        rw [List.append_assoc] at h hmiddle
        obtain ⟨before, first, rfl, hbefore, hfirst⟩ := (iha h).mp hmiddle
        exact ⟨before, first ++ second, by simp, hbefore, first, second, rfl, hfirst, hsecond⟩
      · rintro ⟨before, part, rfl, hbefore, first, second, rfl, hfirst, hsecond⟩
        refine ⟨before ++ first, second, by simp, ?_, hsecond⟩
        have hassoc : before ++ (first ++ second) ++ back = before ++ first ++ (second ++ back) := by simp
        rw [hassoc] at h ⊢
        exact (iha h).mpr ⟨before, first, rfl, hbefore, hfirst⟩
  | alt a b iha ihb =>
      rw [advance, getElem?_join, iha h, ihb h]
      constructor
      · rintro (⟨before, part, hfront, hplace, hmatch⟩ | ⟨before, part, hfront, hplace, hmatch⟩)
        · exact ⟨before, part, hfront, hplace, .inl hmatch⟩
        · exact ⟨before, part, hfront, hplace, .inr hmatch⟩
      · rintro ⟨before, part, hfront, hplace, hmatch | hmatch⟩
        · exact .inl ⟨before, part, hfront, hplace, hmatch⟩
        · exact .inr ⟨before, part, hfront, hplace, hmatch⟩
  | star r ih => exact getElem?_closure_iff ih h

theorem everyPlace_eq (text : List Char) : everyPlace text = List.replicate (text.length + 1) true := by
  rw [everyPlace, List.map_const', List.replicate_succ]

/-- The search tells whether some part of the text matches. -/
theorem matchesIn_iff (r : Regex) (text : List Char) : r.matchesIn text = true ↔
    ∃ before part after, text = before ++ part ++ after ∧ r.Matches before part after := by
  have hlength : (everyPlace text).length = text.length + 1 := by simp [everyPlace]
  rw [matchesIn, List.any_eq_true]
  constructor
  · rintro ⟨p, hmem, rfl : p = true⟩
    obtain ⟨i, hi⟩ := List.mem_iff_getElem?.mp hmem
    obtain ⟨hlt, -⟩ := List.getElem?_eq_some_iff.mp hi
    rw [length_advance r hlength] at hlt
    obtain ⟨front, back, rfl, rfl⟩ : ∃ front back, text = front ++ back ∧ front.length = i :=
      ⟨text.take i, text.drop i, by simp, by rw [List.length_take]; omega⟩
    obtain ⟨before, part, rfl, -, hmatch⟩ := (getElem?_advance r hlength).mp hi
    exact ⟨before, part, back, rfl, hmatch⟩
  · rintro ⟨before, part, after, rfl, hmatch⟩
    refine ⟨true, List.mem_iff_getElem?.mpr ⟨(before ++ part).length, ?_⟩, rfl⟩
    refine (getElem?_advance r hlength).mpr ⟨before, part, rfl, ?_, hmatch⟩
    rw [everyPlace_eq, List.getElem?_replicate, if_pos]
    simp only [List.length_append]
    omega

theorem matchesIn_one (s : CharSet) (text : List Char) : (one s).matchesIn text = text.any s.contains := by
  rw [Bool.eq_iff_iff, matchesIn_iff, List.any_eq_true]
  constructor
  · rintro ⟨before, part, after, rfl, c, rfl, hc⟩
    exact ⟨c, by simp, hc⟩
  · rintro ⟨c, hmem, hc⟩
    obtain ⟨before, after, rfl⟩ := List.append_of_mem hmem
    exact ⟨before, [c], after, by simp, c, rfl, hc⟩

theorem matchesIn_alt (a b : Regex) (text : List Char) :
    (alt a b).matchesIn text = (a.matchesIn text || b.matchesIn text) := by
  rw [Bool.eq_iff_iff, Bool.or_eq_true, matchesIn_iff, matchesIn_iff, matchesIn_iff]
  constructor
  · rintro ⟨before, part, after, htext, hmatch | hmatch⟩
    · exact .inl ⟨before, part, after, htext, hmatch⟩
    · exact .inr ⟨before, part, after, htext, hmatch⟩
  · rintro (⟨before, part, after, htext, hmatch⟩ | ⟨before, part, after, htext, hmatch⟩)
    · exact ⟨before, part, after, htext, .inl hmatch⟩
    · exact ⟨before, part, after, htext, .inr hmatch⟩

end Localization.Regex
