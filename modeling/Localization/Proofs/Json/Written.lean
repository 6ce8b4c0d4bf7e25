import Localization.Json.Reader
import Localization.Text.Quoted
import Mathlib.Data.List.Basic
import Mathlib.Data.List.TakeWhile

/-!
Reading strings and numbers in their written form. What a reader gives on a text is stated with the text
that is left behind it; the place in the whole text only matters to refusals.
-/

namespace Localization.Json.Reader

variable {α β : Type}

/-- The reader gives `a` on a text and leaves a part of it. -/
def Reads (r : Reader α) (text : List Char) (a : α) (left : List Char) : Prop :=
  ∀ line column, ∃ line' column',
    r ⟨text, line, column⟩ = .ok (a, ⟨left, line', column'⟩)

theorem Reads.bind {r : Reader α} {f : α → Reader β} {text middle left : List Char} {a : α} {b : β}
    (h : Reads r text a middle) (hf : Reads (f a) middle b left) :
    Reads (r >>= f) text b left := by
  intro line column
  obtain ⟨line', column', hr⟩ := h line column
  obtain ⟨line'', column'', hb⟩ := hf line' column'
  refine ⟨line'', column'', ?_⟩
  change (r ⟨text, line, column⟩ >>= fun p => f p.1 p.2) = _
  rw [hr]
  exact hb

theorem reads_pure (a : α) (text : List Char) : Reads (pure a) text a text :=
  fun line column => ⟨line, column, rfl⟩

theorem reads_peek? (text : List Char) : Reads peek? text text.head? text :=
  fun line column => ⟨line, column, rfl⟩

theorem reads_bump (c : Char) (rest : List Char) : Reads bump (c :: rest) () rest := by
  intro line column
  by_cases h : c = '\n'
  · exact ⟨line + 1, 0, by simp [bump, passed, h, modify, modifyGet, MonadStateOf.modifyGet,
      StateT.modifyGet, pure, Except.pure]⟩
  · exact ⟨line, column + c.utf8Size, by simp [bump, passed, h, modify, modifyGet,
      MonadStateOf.modifyGet, StateT.modifyGet, pure, Except.pure]⟩

section

variable {r : Reader α} {f : α → Reader β} {a : α} {b : β} {c after : Cursor}

theorem bind_eq_ok : (r >>= f) c = .ok (b, after) ↔
    ∃ a between, r c = .ok (a, between) ∧ f a between = .ok (b, after) := by
  change (r c >>= fun p => f p.1 p.2) = _ ↔ _
  cases r c with
  | error e => simp [bind, Except.bind]
  | ok p =>
      obtain ⟨a, between⟩ := p
      simp [bind, Except.bind]

theorem not_refuseNext (fault : Fault) : (refuseNext fault : Reader α) c ≠ .ok (a, after) := by
  unfold refuseNext
  split <;> simp

end

/-! ## Blanks and words -/

/-- The characters that may stand between the parts of a value. -/
def IsBlank (c : Char) : Prop :=
  c = ' ' ∨ c = '\n' ∨ c = '\t' ∨ c = '\r'

instance : DecidablePred IsBlank := fun c =>
  inferInstanceAs (Decidable (c = ' ' ∨ c = '\n' ∨ c = '\t' ∨ c = '\r'))

theorem behindBlanks_cons {c : Char} (h : ¬ IsBlank c) (rest : List Char) (cursor : Cursor) :
    behindBlanks (c :: rest) cursor = cursor :=
  if_neg h

theorem exists_behindBlanks {blanks rest : List Char} (hblanks : ∀ c ∈ blanks, IsBlank c)
    (hrest : ∀ c ∈ rest.head?, ¬ IsBlank c) (line column : Nat) : ∃ line' column',
    behindBlanks (blanks ++ rest) ⟨blanks ++ rest, line, column⟩ = ⟨rest, line', column'⟩ := by
  induction blanks generalizing line column with
  | nil =>
      refine ⟨line, column, ?_⟩
      cases rest with
      | nil => rfl
      | cons c rest => exact behindBlanks_cons (hrest c rfl) rest _
  | cons b blanks ih =>
      have hb : IsBlank b := hblanks b (by simp)
      obtain ⟨line₁, column₁, hpassed⟩ : ∃ line₁ column₁,
          passed b (blanks ++ rest) ⟨b :: (blanks ++ rest), line, column⟩ =
            ⟨blanks ++ rest, line₁, column₁⟩ := by
        unfold passed
        split
        · exact ⟨_, _, rfl⟩
        · exact ⟨_, _, rfl⟩
      obtain ⟨line', column', h⟩ := ih (fun c hc => hblanks c (by simp [hc])) line₁ column₁
      refine ⟨line', column', ?_⟩
      rw [List.cons_append, behindBlanks, hpassed, h]
      exact if_pos hb

theorem reads_skipBlanks {blanks rest : List Char} (hblanks : ∀ c ∈ blanks, IsBlank c)
    (hrest : ∀ c ∈ rest.head?, ¬ IsBlank c) : Reads skipBlanks (blanks ++ rest) rest.head? rest := by
  have hmodify : Reads (modify fun cursor => behindBlanks cursor.rest cursor)
      (blanks ++ rest) PUnit.unit rest := by
    intro line column
    obtain ⟨line', column', h⟩ := exists_behindBlanks hblanks hrest line column
    refine ⟨line', column', ?_⟩
    change Except.ok (PUnit.unit, behindBlanks (blanks ++ rest) ⟨blanks ++ rest, line, column⟩) = _
    rw [h]
  exact hmodify.bind (reads_peek? rest)

/-- In front of something else no blanks are passed. -/
theorem reads_skipBlanks_cons {c : Char} (h : ¬ IsBlank c) (rest : List Char) :
    Reads skipBlanks (c :: rest) (some c) (c :: rest) :=
  have hnone : ∀ b ∈ ([] : List Char), IsBlank b := by simp
  reads_skipBlanks hnone (by simpa using h)

theorem reads_word (text rest : List Char) : Reads (word text) (text ++ rest) () rest := by
  induction text with
  | nil => exact reads_pure () rest
  | cons c text ih =>
      refine (reads_peek? _).bind ?_
      simp only [List.cons_append, List.head?_cons, if_true]
      exact (reads_bump c _).bind ih

/-! ## Strings -/

theorem reads_escape {c letter : Char} (h : simpleEscape? letter = some c) (rest : List Char) :
    Reads escape (letter :: rest) c rest := by
  refine (reads_peek? _).bind ?_
  simp only [List.head?_cons, h]
  exact (reads_bump letter rest).bind (reads_pure c rest)

theorem reads_bumps (text rest : List Char) :
    Reads (text.forM fun _ => bump) (text ++ rest) () rest := by
  induction text with
  | nil => exact reads_pure () rest
  | cons c text ih => exact (reads_bump c _).bind ih

/-- What a reader does with its cursor, it does at every place. -/
theorem reads_get_bind {f : Cursor → Reader β} {text left : List Char} {b : β}
    (h : ∀ line column, Reads (f ⟨text, line, column⟩) text b left) :
    Reads (get >>= f) text b left :=
  fun line column => h line column line column

theorem reads_fourDigits {n : Nat} (h : n < 32) (rest : List Char) :
    Reads fourDigits
      ('0' :: '0' :: Text.Quoted.hexDigit (n / 16) :: Text.Quoted.hexDigit (n % 16) :: rest)
      n rest := by
  have hhigh : n / 16 < 16 := by omega
  have hlow : n % 16 < 16 := by omega
  have hread {digit : Nat} (h : digit < 16) : hexValue? (Text.Quoted.hexDigit digit) = some digit :=
    Text.Quoted.hexValue?_hexDigit h
  have hlength : Text.byteLength
      ['0', '0', Text.Quoted.hexDigit (n / 16), Text.Quoted.hexDigit (n % 16)] = 4 := by
    simp [Text.byteLength, Text.Quoted.utf8Size_hexDigit hhigh, Text.Quoted.utf8Size_hexDigit hlow]
    rfl
  refine reads_get_bind fun line column => ?_
  simp only [List.take_succ_cons, List.take_zero, hlength, Nat.lt_irrefl, if_false, List.map_cons,
    List.map_nil, hread hhigh, hread hlow, show hexValue? '0' = some 0 from rfl]
  refine (reads_bumps ['0', '0', _, _] rest).bind ?_
  have hvalue : ((16 * 0 + 0) * 16 + n / 16) * 16 + n % 16 = n := by omega
  rw [hvalue]
  exact reads_pure n rest

theorem reads_unicodeEscape {c : Char} (h : c.toNat < 32) (rest : List Char) :
    Reads escape
      ('u' :: '0' :: '0' :: Text.Quoted.hexDigit (c.toNat / 16) ::
        Text.Quoted.hexDigit (c.toNat % 16) :: rest) c rest := by
  refine (reads_peek? _).bind ?_
  simp only [List.head?_cons, show simpleEscape? 'u' = none from rfl, if_true]
  refine (reads_bump _ _).bind ((reads_fourDigits h rest).bind ?_)
  have hlow : ¬(0xDC00 ≤ c.toNat ∧ c.toNat ≤ 0xDFFF) := by omega
  have hplain : c.toNat < 0xD800 ∨ 0xDBFF < c.toNat := by omega
  simp only [hlow, hplain, if_false, if_true, Char.ofNat_toNat]
  exact (reads_pure _ _).bind (reads_pure c rest)

/-- The written form of a character is read as that character. -/
theorem reads_characters_escape (c : Char) {fuel : Nat} {text more left : List Char}
    (h : Reads (characters fuel) text more left) :
    Reads (characters (fuel + 1)) (Text.Quoted.escape c ++ text) (c :: more) left := by
  have hthen : Reads (characters fuel >>= fun rest => pure (c :: rest)) text (c :: more) left :=
    h.bind (reads_pure _ left)
  have hletter : ∀ {letter : Char} (d : Char), simpleEscape? letter = some d →
      c.toNat = d.toNat → simpleEscape? letter = some c := by
    intro letter d hread hc
    rwa [Char.toNat_inj.mp hc]
  -- an escape begins with a backslash, behind which the character is read
  have hescape : ∀ escaped, Reads escape (escaped ++ text) c text →
      Reads (characters (fuel + 1)) ('\\' :: escaped ++ text) (c :: more) left := by
    intro escaped hread
    exact (reads_peek? _).bind ((reads_bump _ _).bind (hread.bind hthen))
  unfold Text.Quoted.escape
  split
  · next hquote => exact hescape ['\x22'] (reads_escape (by rw [hquote]; rfl) text)
  split
  · next hback => exact hescape ['\\'] (reads_escape (by rw [hback]; rfl) text)
  split
  · next hquote hback hplain =>
      have hraw : Reads (characters (fuel + 1)) (c :: text) (c :: more) left := by
        refine (reads_peek? _).bind ?_
        rw [List.head?_cons]
        split
        · next heq => exact absurd heq (by simp)
        · next heq => exact absurd (Option.some.inj heq) hquote
        · next heq => exact absurd (Option.some.inj heq) hback
        · next heq =>
            obtain rfl := Option.some.inj heq
            refine (reads_bump _ _).bind ?_
            rw [if_neg (by omega)]
            exact (reads_pure _ _).bind hthen
      exact hraw
  split
  · next h => exact hescape ['b'] (reads_escape (hletter '\x08' rfl h) text)
  split
  · next h => exact hescape ['t'] (reads_escape (hletter '\t' rfl h) text)
  split
  · next h => exact hescape ['n'] (reads_escape (hletter '\n' rfl h) text)
  split
  · next h => exact hescape ['f'] (reads_escape (hletter '\x0c' rfl h) text)
  split
  · next h => exact hescape ['r'] (reads_escape (hletter '\r' rfl h) text)
  · next hcontrol _ _ _ _ _ =>
      exact hescape _ (reads_unicodeEscape (by omega) text)

theorem reads_characters (cs rest : List Char) {fuel : Nat} (h : cs.length < fuel) :
    Reads (characters fuel) (Text.Quoted.encodeChars cs ++ '\x22' :: rest) cs rest := by
  induction cs generalizing fuel with
  | nil =>
      obtain ⟨fuel, rfl⟩ := Nat.exists_eq_add_one.mpr h
      exact (reads_peek? _).bind ((reads_bump _ rest).bind (reads_pure [] rest))
  | cons c cs ih =>
      obtain ⟨fuel, rfl⟩ := Nat.exists_eq_add_one.mpr (Nat.zero_lt_of_lt h)
      have hcs : Reads (characters fuel) _ cs rest := ih (Nat.lt_of_succ_lt_succ h)
      rw [Text.Quoted.encodeChars, List.flatMap_cons, List.append_assoc]
      exact reads_characters_escape c hcs

theorem length_le_encodeChars (cs : List Char) : cs.length ≤ (Text.Quoted.encodeChars cs).length := by
  induction cs with
  | nil => exact Nat.le_refl 0
  | cons c cs ih =>
      have hone : 1 ≤ (Text.Quoted.escape c).length := by
        unfold Text.Quoted.escape
        repeat' split
        all_goals simp
      rw [Text.Quoted.encodeChars, List.flatMap_cons, List.length_append, List.length_cons]
      rw [Text.Quoted.encodeChars] at ih
      omega

/-- A string is read from its written form behind the opening quote. -/
theorem reads_string (s : String) (rest : List Char) :
    Reads string (Text.Quoted.encodeChars s.toList ++ '\x22' :: rest) s rest := by
  refine reads_get_bind fun line column => ?_
  have hlength := length_le_encodeChars s.toList
  refine (reads_characters s.toList rest ?_).bind ?_
  · simp only [List.length_append]
    omega
  · rw [String.ofList_toList]
    exact reads_pure s rest

/-! ## Numbers -/

theorem isDigit_of_mem_toDigits {n : Nat} {c : Char} (h : c ∈ Nat.toDigits 10 n) :
    isDigit c = true := by
  have hdigit := Nat.isDigit_of_mem_toDigits (by decide) (by decide) h
  simp only [Char.isDigit, Bool.and_eq_true, decide_eq_true_eq] at hdigit
  simp only [isDigit, Bool.and_eq_true, decide_eq_true_eq]
  exact hdigit

theorem toList_toString (n : Nat) : (toString n).toList = Nat.toDigits 10 n := by
  rw [Nat.toString_eq_repr, Nat.toList_repr]

/-- Only zero is written with a zero in front. -/
theorem head?_toDigits_ne_zero {n : Nat} (h : 0 < n) : (Nat.toDigits 10 n).head? ≠ some '0' := by
  induction n using Nat.strongRecOn with
  | ind n ih =>
      by_cases hn : n < 10
      · rw [Nat.toDigits_of_lt_base hn, List.head?_cons]
        simp only [ne_eq, Option.some.injEq, Nat.digitChar_eq_zero]
        omega
      · rw [Nat.toDigits_of_base_le (by decide) (by omega),
          List.head?_append_of_ne_nil _ Nat.toDigits_ne_nil]
        exact ih (n / 10) (by omega) (by omega)

theorem le_ofDigitChars (ds : List Char) (n : Nat) : n ≤ Nat.ofDigitChars 10 ds n := by
  induction ds generalizing n with
  | nil => simp
  | cons c ds ih =>
      rw [Nat.ofDigitChars_cons]
      have h := ih (10 * n + (c.toNat - '0'.toNat))
      omega

/-- Digits are appended as long as the number fits. -/
theorem appendDigits_eq {ds : List Char} {n : Nat} (h : Nat.ofDigitChars 10 ds n ≤ maxNatural) :
    appendDigits n ds = (Nat.ofDigitChars 10 ds n, ds.length, 0) := by
  induction ds generalizing n with
  | nil => simp [appendDigits]
  | cons c ds ih =>
      rw [Nat.ofDigitChars_cons] at h
      have hfits : ¬ maxNatural < 10 * n + (c.toNat - 48) :=
        Nat.not_lt.mpr ((le_ofDigitChars ds _).trans h)
      have hds : appendDigits (10 * n + (c.toNat - 48)) ds = _ := ih h
      rw [appendDigits]
      simp only [hfits, if_false]
      rw [hds, Nat.ofDigitChars_cons]
      rfl

/-- What may stand behind a value inside an array or object, or behind a whole one. -/
def Stops (rest : List Char) : Prop :=
  ∀ c ∈ rest.head?, c = ',' ∨ c = '\n'

theorem reads_digits {ds rest : List Char} (hds : ∀ c ∈ ds, isDigit c = true)
    (hrest : ∀ c ∈ rest.head?, isDigit c = false) : Reads digits (ds ++ rest) ds rest := by
  have hrun : (ds ++ rest).takeWhile isDigit = ds := by
    rw [List.takeWhile_append_of_pos hds]
    cases rest with
    | nil => simp
    | cons c rest => simp [hrest c rfl]
  refine reads_get_bind fun line column => ?_
  rw [hrun]
  intro line' column'
  refine ⟨line', column' + ds.length, ?_⟩
  change Except.ok (ds, (⟨(ds ++ rest).drop ds.length, line', _⟩ : Cursor)) = _
  rw [List.drop_left]

/-- A number is read from its written form behind the sign. -/
theorem reads_number (isNegative : Bool) {n : Nat} {rest : List Char} (hn : n ≤ maxNatural)
    (hnegative : isNegative = true → 0 < n ∧ n ≤ Nat.pow 2 63) (hrest : Stops rest) :
    Reads (number isNegative) (Nat.toDigits 10 n ++ rest)
      (if isNegative then .negative n else .natural n) rest := by
  obtain ⟨c, more, hdigits⟩ := List.exists_cons_of_ne_nil (Nat.toDigits_ne_nil (n := n) (b := 10))
  have hall : ∀ d ∈ c :: more, isDigit d = true := by
    intro d hd
    exact isDigit_of_mem_toDigits (n := n) (hdigits ▸ hd)
  have hvalue : Nat.ofDigitChars 10 more (c.toNat - 48) = n := by
    have h := Nat.ofDigitChars_ten_toDigits (n := n)
    rw [hdigits, Nat.ofDigitChars_cons] at h
    simpa using h
  have happend : appendDigits (c.toNat - 48) more = (n, more.length, 0) := by
    rw [appendDigits_eq (by rw [hvalue]; exact hn), hvalue]
  have hnext : ∀ d ∈ rest.head?, isDigit d = false ∧ d ≠ '.' ∧ d ≠ 'e' ∧ d ≠ 'E' := by
    intro d hd
    obtain rfl | rfl := hrest d hd
    · decide
    · decide
  have hnodigit : rest.head?.any isDigit = false := by
    cases h : rest.head? with
    | none => rfl
    | some d => exact (hnext d h).1
  rw [hdigits]
  refine (reads_peek? _).bind ?_
  simp only [List.cons_append, List.head?_cons, hall c (by simp), Bool.not_true, Bool.false_eq_true,
    if_false]
  refine (reads_bump c _).bind ?_
  have hzero : c = '0' → more = [] ∧ n = 0 := by
    intro hc
    have hn : n = 0 := by
      by_contra hpos
      apply head?_toDigits_ne_zero (Nat.pos_of_ne_zero hpos)
      rw [hdigits, hc, List.head?_cons]
    subst hn
    rw [Nat.toDigits_zero] at hdigits
    exact ⟨(List.cons.inj hdigits).2.symm, rfl⟩
  -- the digits behind a zero are none, and those behind another digit are all that are left
  split
  case' isTrue hc =>
    obtain ⟨rfl, -⟩ := hzero hc
    refine (reads_peek? rest).bind ?_
    rw [hnodigit, if_neg Bool.false_ne_true]
    refine (reads_pure [] rest).bind ?_
  case' isFalse hc =>
    refine (reads_digits (fun d hd => hall d (List.mem_cons_of_mem c hd))
      fun d hd => (hnext d hd).1).bind ?_
  all_goals
    rw [happend]
    refine (reads_peek? rest).bind ?_
    split
    · next h => exact absurd rfl (hnext _ h).2.1
    · next h => exact absurd rfl (hnext _ h).2.2.1
    · next h => exact absurd rfl (hnext _ h).2.2.2
    · cases isNegative with
      | false => exact reads_pure _ rest
      | true =>
          have hrange : ¬ (n = 0 ∨ Nat.pow 2 63 < n) := by
            have h := hnegative rfl
            omega
          simp only [Nat.lt_irrefl, if_false, Bool.not_true, Bool.false_eq_true, Bool.or_eq_true,
            decide_eq_true_eq, hrange, if_true]
          exact reads_pure _ rest

end Localization.Json.Reader
