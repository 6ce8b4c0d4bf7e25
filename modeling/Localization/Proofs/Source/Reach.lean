import Mathlib.Data.List.Basic
import Mathlib.Data.List.TakeWhile
import Localization.Source.Scan

/-!
How readers go on: each one comes from its place to another by passing characters, and none stops between
a carriage return and its line feed. Main statements: `enters_skipBlanks`, `enters_tokenAt`,
`passes_scanElementText`.
-/

namespace Localization.Source

open Text (byteLength)
open Text.Quoted (hexValue?)

/-! ## Passing characters -/

namespace Place

variable {p q r : Place} {text : List Char}

/-- A text is passed on the way from one place to another. -/
def Passes (p : Place) (text : List Char) (q : Place) : Prop :=
  p.rest = text ++ q.rest ∧ q.offset = p.offset + byteLength text

theorem passes_nil (p : Place) : p.Passes [] p :=
  ⟨rfl, rfl⟩

theorem Passes.cons {c : Char} {rest : List Char} {offset : Nat}
    (h : Passes ⟨rest, offset + c.utf8Size⟩ text q) : Passes ⟨c :: rest, offset⟩ (c :: text) q := by
  constructor
  · exact congrArg (c :: ·) h.1
  · rw [h.2, byteLength, Nat.add_assoc]

theorem Passes.append {more : List Char} (h : p.Passes text q) (hmore : q.Passes more r) :
    p.Passes (text ++ more) r := by
  constructor
  · rw [h.1, hmore.1, List.append_assoc]
  · rw [hmore.2, h.2, Text.byteLength_append, Nat.add_assoc]

/-- A place is reached from another one. -/
def Reaches (p q : Place) : Prop :=
  ∃ text, p.Passes text q

theorem Reaches.refl (p : Place) : p.Reaches p :=
  ⟨[], p.passes_nil⟩

theorem Reaches.trans (h : p.Reaches q) (hq : q.Reaches r) : p.Reaches r := by
  obtain ⟨text, h⟩ := h
  obtain ⟨more, hmore⟩ := hq
  exact ⟨text ++ more, h.append hmore⟩

theorem Reaches.le (h : p.Reaches q) : p.offset ≤ q.offset := by
  obtain ⟨text, -, h⟩ := h
  omega

/-- A character of `size` bytes is passed first. -/
theorem Reaches.cons {c : Char} {rest : List Char} {offset size : Nat} (hsize : c.utf8Size = size)
    (h : Reaches ⟨rest, offset + size⟩ q) : Reaches ⟨c :: rest, offset⟩ q := by
  subst hsize
  obtain ⟨text, h⟩ := h
  exact ⟨c :: text, h.cons⟩

/-- A place is reached, and no line end of two characters is passed by half. -/
def Enters (p q : Place) : Prop :=
  ∃ text, p.Passes text q ∧ (text.getLast? = some '\r' → q.rest.head? ≠ some '\n')

theorem Enters.reaches (h : p.Enters q) : p.Reaches q := by
  obtain ⟨text, htext, -⟩ := h
  exact ⟨text, htext⟩

theorem Enters.refl (p : Place) : p.Enters p :=
  ⟨[], p.passes_nil, nofun⟩

theorem Enters.trans (h : p.Enters q) (hq : q.Enters r) : p.Enters r := by
  obtain ⟨text, htext, hfeed⟩ := h
  obtain ⟨more, hmore, hfeed'⟩ := hq
  refine ⟨text ++ more, htext.append hmore, ?_⟩
  cases more with
  | nil =>
      obtain ⟨hrest, -⟩ := hmore
      rwa [List.append_nil, ← show q.rest = r.rest from hrest]
  | cons c more => rwa [List.getLast?_append_of_ne_nil _ (List.cons_ne_nil c more)]

theorem Reaches.enters (h : p.Reaches q) (hq : q.rest.head? ≠ some '\n') : p.Enters q := by
  obtain ⟨text, htext⟩ := h
  exact ⟨text, htext, fun _ => hq⟩

/-- A character of `size` bytes is passed first. -/
theorem Enters.cons {c : Char} {rest : List Char} {offset size : Nat} (hsize : c.utf8Size = size)
    (hc : c ≠ '\r' ∨ rest.head? ≠ some '\n') (h : Enters ⟨rest, offset + size⟩ q) :
    Enters ⟨c :: rest, offset⟩ q := by
  subst hsize
  obtain ⟨text, htext, hfeed⟩ := h
  refine ⟨c :: text, htext.cons, ?_⟩
  cases text with
  | nil =>
      obtain ⟨hrest, -⟩ := htext
      intro hreturn
      have hq : q.rest = rest := hrest.symm
      rw [hq]
      exact hc.resolve_left fun hne => hne (Option.some.inj hreturn)
  | cons d text => exact hfeed

theorem Enters.of_rest {c : Char} {rest : List Char} (h : p.rest = c :: rest) (hc : c ≠ '\r') :
    p.Enters ⟨rest, p.offset + c.utf8Size⟩ := by
  obtain ⟨cs, offset⟩ := p
  obtain rfl : cs = c :: rest := h
  exact .cons rfl (.inl hc) (.refl _)

theorem reaches_skip (p : Place) : p.Reaches p.skip := by
  obtain ⟨rest, offset⟩ := p
  cases rest with
  | nil => exact .refl _
  | cons c rest => exact .cons rfl (.refl _)

theorem reaches_advance (p : Place) (n : Nat) : p.Reaches (p.advance n) := by
  induction n generalizing p with
  | zero => exact .refl p
  | succ n ih => exact p.reaches_skip.trans (ih p.skip)

theorem enters_skip {p : Place} (h : p.rest.head? ≠ some '\r') : p.Enters p.skip := by
  obtain ⟨rest, offset⟩ := p
  cases rest with
  | nil => exact .refl _
  | cons c rest => exact .cons rfl (.inl fun hc => h (congrArg some hc)) (.refl _)

@[simp]
theorem advance_nil (offset n : Nat) : advance ⟨[], offset⟩ n = ⟨[], offset⟩ := by
  induction n with
  | zero => rfl
  | succ n ih => exact ih

/-- Characters that are no carriage returns are passed. -/
theorem enters_advance {cs : List Char} {n : Nat} (offset : Nat) (h : ∀ c ∈ cs.take n, c ≠ '\r') :
    Enters ⟨cs, offset⟩ (advance ⟨cs, offset⟩ n) := by
  induction n generalizing cs offset with
  | zero => exact .refl _
  | succ n ih =>
      cases cs with
      | nil => rw [advance_nil]; exact .refl _
      | cons c rest =>
          rw [List.take_succ_cons, List.forall_mem_cons] at h
          exact .cons rfl (.inl h.1) (ih _ h.2)

end Place

/-! ## Scanning goes on -/

open Place (Reaches Enters)

theorem reaches_skipBlanks (at_ : Blanks) (newline : Bool) (cs : List Char) (offset : Nat) :
    Reaches ⟨cs, offset⟩ (skipBlanks at_ newline cs offset).place := by
  induction cs generalizing at_ newline offset with
  | nil => exact .refl _
  | cons c rest ih =>
      have hnext (at_ : Blanks) (newline : Bool) :
          Reaches ⟨c :: rest, offset⟩ (skipBlanks at_ newline rest (offset + c.utf8Size)).place :=
        .cons rfl (ih at_ newline _)
      cases at_ <;> simp only [skipBlanks]
      · split
        · exact hnext ..
        · split
          · exact hnext ..
          · split
            · exact hnext ..
            · split
              · exact hnext ..
              · split
                · exact hnext ..
                · split
                  · exact hnext ..
                  · exact .refl _
      · split <;> exact hnext ..
      · exact hnext ..
      · split <;> exact hnext ..
      · split
        · exact hnext ..
        · split <;> exact hnext ..

theorem le_skipBlanks (at_ : Blanks) (newline : Bool) (cs : List Char) (offset : Nat) :
    offset ≤ (skipBlanks at_ newline cs offset).place.offset :=
  (reaches_skipBlanks at_ newline cs offset).le

/-- A line end is a blank, so what stands behind blanks does not begin with one. -/
theorem head_skipBlanks (at_ : Blanks) (newline : Bool) (cs : List Char) (offset : Nat) {d : Char}
    (hd : isLineTerminator d = true) :
    (skipBlanks at_ newline cs offset).place.rest.head? ≠ some d := by
  induction cs generalizing at_ newline offset with
  | nil => nofun
  | cons c rest ih =>
      cases at_ <;> simp only [skipBlanks]
      · split
        · exact ih _ _ _
        · next hline =>
            have hhead : ¬ some c = some d := fun hc => hline (Option.some.inj hc ▸ hd)
            split_ifs
            all_goals first | exact ih _ _ _ | exact hhead
      · split <;> exact ih _ _ _
      · exact ih _ _ _
      · split <;> exact ih _ _ _
      · split_ifs <;> exact ih _ _ _

theorem enters_skipBlanks (at_ : Blanks) (newline : Bool) (cs : List Char) (offset : Nat) :
    Enters ⟨cs, offset⟩ (skipBlanks at_ newline cs offset).place :=
  (reaches_skipBlanks at_ newline cs offset).enters (head_skipBlanks at_ newline cs offset rfl)

/-! ### Escapes -/

theorem ne_return_of_hexValue? {c : Char} (h : (hexValue? c).isSome) : c ≠ '\r' := by
  rintro rfl
  contradiction

theorem isSome_of_foldl_hexValue? {digits : List Char} {init : Option Nat} {n : Nat}
    (h : digits.foldl (fun n c => do some (16 * (← n) + (← hexValue? c))) init = some n) :
    init.isSome ∧ ∀ c ∈ digits, (hexValue? c).isSome := by
  induction digits generalizing init with
  | nil => exact ⟨by rw [show init = some n from h]; rfl, nofun⟩
  | cons d rest ih =>
      obtain ⟨hnext, hrest⟩ := ih h
      cases init with
      | none => contradiction
      | some m =>
          cases hd : hexValue? d with
          | none => simp [hd] at hnext
          | some k => exact ⟨rfl, List.forall_mem_cons.mpr ⟨by rw [hd]; rfl, hrest⟩⟩

theorem isSome_of_hexNumber? {digits : List Char} {n : Nat} (h : hexNumber? digits = some n) :
    ∀ c ∈ digits, (hexValue? c).isSome :=
  (isSome_of_foldl_hexValue? h).2

theorem ne_return_of_octalValue? {c : Char} (h : (octalValue? c).isSome) : c ≠ '\r' := by
  rintro rfl
  contradiction

/-- The characters of an octal escape are octal digits. -/
theorem isSome_of_octalEscape {digits : List Char} :
    ∀ c ∈ digits.take (octalEscape digits).2, (octalValue? c).isSome := by
  obtain ⟨run, hrun⟩ : ∃ run, run = (digits.take 3).takeWhile fun c => (octalValue? c).isSome := ⟨_, rfl⟩
  have hlength : (octalEscape digits).2 ≤ run.length := by
    refine Nat.le_trans ?_ (List.length_filterMap_le octalValue? run)
    unfold octalEscape
    rw [← hrun]
    split
    · next h => rw [h]; exact Nat.le_refl 1
    · next h => rw [h]; exact Nat.le_refl 2
    · next h =>
        rw [h]
        split
        · exact Nat.le_refl 3
        · exact Nat.le_succ 2
    · exact Nat.zero_le _
  obtain ⟨more, hdigits⟩ : run <+: digits := by
    rw [hrun]
    exact (List.takeWhile_prefix _).trans (List.take_prefix _ _)
  intro c hc
  generalize (octalEscape digits).2 = length at hlength hc
  rw [← hdigits, List.take_append_of_le_length hlength] at hc
  have hmem := List.mem_of_mem_take hc
  rw [hrun] at hmem
  exact List.mem_takeWhile_imp (p := fun c => (octalValue? c).isSome) hmem

theorem exists_of_takeWhile_brace {rest : List Char}
    (h : (rest.takeWhile (· != '\x7d')).length ≠ rest.length) :
    ∃ tail, rest = rest.takeWhile (· != '\x7d') ++ '\x7d' :: tail := by
  have hrest := List.takeWhile_append_dropWhile (p := (· != '\x7d')) (l := rest)
  cases hdrop : rest.dropWhile (· != '\x7d') with
  | nil =>
      rw [hdrop, List.append_nil] at hrest
      exact absurd (congrArg List.length hrest) h
  | cons d tail =>
      have hd := List.head?_dropWhile_not (· != '\x7d') rest
      rw [hdrop] at hd
      obtain rfl : d = '\x7d' := by simpa using hd
      exact ⟨tail, by rw [← hdrop, hrest]⟩

/-- An escape takes in a line end of two characters. -/
theorem enters_escape {cs : List Char} {codes : List Nat} {length : Nat} (offset : Nat)
    (h : escapeAt cs = some (codes, length)) :
    Enters ⟨cs, offset⟩ (Place.advance ⟨cs, offset⟩ length) := by
  have hdigits {n m : Nat} {digits rest : List Char} (hnumber : hexNumber? digits = some n)
      (hrest : rest.take m = digits) (letter : Char) (hletter : letter ≠ '\r') :
      Enters ⟨letter :: rest, offset⟩ (Place.advance ⟨letter :: rest, offset⟩ (m + 1)) := by
    refine .cons rfl (.inl hletter) (Place.enters_advance _ fun c hc => ?_)
    exact ne_return_of_hexValue? (isSome_of_hexNumber? hnumber c (hrest ▸ hc))
  unfold escapeAt at h
  split at h
  · contradiction
  · obtain ⟨-, rfl⟩ := Prod.mk.inj (Option.some.inj h)
    exact ⟨['\r', '\n'], ⟨rfl, rfl⟩, fun hreturn => absurd hreturn (by decide)⟩
  · next rest =>
      dsimp only at h
      split at h
      · next n hnumber =>
          split at h
          · contradiction
          · next hclosed =>
              obtain ⟨-, rfl⟩ := Prod.mk.inj (Option.some.inj h)
              obtain ⟨tail, htail⟩ := @exists_of_takeWhile_brace rest fun hlength => hclosed (by simp [hlength])
              refine .cons rfl (.inl (by decide)) (.cons rfl (.inl (by decide)) (Place.enters_advance _ ?_))
              -- The characters that are passed are the digits and the closing brace.
              generalize rest.takeWhile (· != '\x7d') = digits at hnumber htail
              rw [htail, List.take_length_add_append]
              intro c hc
              rcases List.mem_append.mp hc with hc | hc
              · exact ne_return_of_hexValue? (isSome_of_hexNumber? hnumber c hc)
              · obtain rfl := List.mem_singleton.mp hc
                decide
      · contradiction
  · next rest _ =>
      split at h
      · obtain ⟨n, hnumber, h⟩ := Option.map_eq_some_iff.mp h
        obtain ⟨-, rfl⟩ := Prod.mk.inj h
        exact hdigits hnumber rfl 'u' (by decide)
      · contradiction
  · next rest =>
      split at h
      · obtain ⟨n, hnumber, h⟩ := Option.map_eq_some_iff.mp h
        obtain ⟨-, rfl⟩ := Prod.mk.inj h
        exact hdigits hnumber rfl 'x' (by decide)
      · contradiction
  · next e rest hpair _ _ _ =>
      split at h
      · obtain ⟨-, rfl⟩ := Prod.mk.inj (Option.some.inj h)
        refine .cons rfl ?_ (.refl _)
        by_cases he : e = '\r'
        · refine .inr fun hfeed => ?_
          obtain ⟨tail, htail⟩ := List.head?_eq_some_iff.mp hfeed
          exact hpair tail he htail
        · exact .inl he
      · next hline =>
          have hreturn : e ≠ '\r' := by
            rintro rfl
            exact hline rfl
          split at h
          · obtain ⟨-, rfl⟩ := Prod.mk.inj (Option.some.inj h)
            exact Place.enters_advance _ fun c hc => ne_return_of_octalValue? (isSome_of_octalEscape c hc)
          · obtain ⟨-, rfl⟩ := Prod.mk.inj (Option.some.inj h)
            exact .cons rfl (.inl hreturn) (.refl _)

/-! ### Names -/

/-- A name is read behind the escape that has been read. -/
theorem enters_scanNameFrom {more : Char → Bool} (hmore : more '\r' = false) {seen : List Char}
    {escaped : Bool} {skip : Nat} {cs : List Char} {offset : Nat} {name : ScannedName}
    (h : scanNameFrom more seen escaped skip cs offset = some name) :
    Enters (Place.advance ⟨cs, offset⟩ skip) name.after := by
  induction cs generalizing seen escaped skip offset with
  | nil =>
      obtain rfl := Option.some.inj h
      rw [Place.advance_nil]
      exact .refl _
  | cons c rest ih =>
      cases skip with
      | succ k => exact ih h
      | zero =>
          rw [scanNameFrom] at h
          split at h
          · next hc =>
              subst hc
              split at h
              · next hescape => exact .cons rfl (.inl (by decide)) ((enters_escape _ hescape).trans (ih h))
              · contradiction
          · split at h
            · next hc =>
                have hreturn : c ≠ '\r' := by
                  rintro rfl
                  rw [hmore] at hc
                  contradiction
                exact .cons rfl (.inl hreturn) (ih h)
            · obtain rfl := Option.some.inj h
              exact .refl _

theorem isIdentifierPart_return : Text.isIdentifierPart '\r' = false := by decide

theorem enters_scanName {p : Place} {name : ScannedName} (h : scanName p = some name) :
    p.Enters name.after := by
  unfold scanName at h
  split at h
  · contradiction
  · split at h
    · exact enters_scanNameFrom isIdentifierPart_return h
    · contradiction

theorem enters_scanTagName {p : Place} {name : ScannedName} (h : scanTagName p = some name) :
    p.Enters name.after := by
  unfold scanTagName at h
  split at h
  · contradiction
  · split at h
    · exact enters_scanNameFrom (by rw [isIdentifierPart_return]; decide) h
    · contradiction

/-! ### Numbers -/

/-- The characters of a test are one byte long, and no carriage returns. -/
def IsNarrow (test : Char → Bool) : Prop :=
  ∀ c, test c = true → c.utf8Size = 1 ∧ c ≠ '\r'

theorem utf8Size_of_toNat_lt {c : Char} (h : c.toNat < 128) : c.utf8Size = 1 := by
  rw [Char.utf8Size_eq_one_iff, UInt32.le_iff_toNat_le]
  exact Nat.le_of_lt_succ h

theorem IsNarrow.orGap {test : Char → Bool} (h : IsNarrow test) :
    IsNarrow fun c => test c || c = '_' := by
  intro c hc
  rcases Bool.or_eq_true_iff.mp hc with hc | hc
  · exact h c hc
  · obtain rfl := of_decide_eq_true hc
    decide

theorem isNarrow_of_toNat {test : Char → Bool} (hreturn : test '\r' = false)
    (h : ∀ c, test c = true → c.toNat < 128) : IsNarrow test := by
  intro c hc
  refine ⟨utf8Size_of_toNat_lt (h c hc), ?_⟩
  rintro rfl
  rw [hreturn] at hc
  contradiction

theorem isNarrow_isDigit : IsNarrow isDigit := by
  refine isNarrow_of_toNat (by decide) fun c hc => ?_
  simp only [isDigit, Bool.and_eq_true, decide_eq_true_eq] at hc
  omega

theorem isNarrow_hexValue? : IsNarrow fun c => (hexValue? c).isSome := by
  refine isNarrow_of_toNat (by decide) fun c hc => ?_
  simp only [hexValue?, Bool.and_eq_true, decide_eq_true_eq] at hc
  split at hc
  · omega
  · split at hc
    · omega
    · split at hc
      · omega
      · contradiction

theorem enters_dropDigits {test : Char → Bool} (h : IsNarrow test) (p : Place) :
    p.Enters (dropDigits test p) := by
  obtain ⟨cs, offset⟩ := p
  induction cs generalizing offset with
  | nil => exact .refl _
  | cons c rest ih =>
      cases hc : test c with
      | false =>
          have hnone : dropDigits test ⟨c :: rest, offset⟩ = ⟨c :: rest, offset⟩ := by
            simp [dropDigits, hc]
          rw [hnone]
          exact .refl _
      | true =>
          have hmore : dropDigits test ⟨c :: rest, offset⟩ = dropDigits test ⟨rest, offset + 1⟩ := by
            simp [dropDigits, hc, Nat.add_assoc, Nat.add_comm 1]
          rw [hmore]
          exact .cons (h c hc).1 (.inl (h c hc).2) (ih (offset + 1))

/-! ### Strings and templates -/

/-- A string is read behind the escape that has been read. -/
theorem enters_scanString {quote : Char} (hquote : quote = '\x22' ∨ quote = '\x27')
    {codes read : List Nat} {skip offset : Nat} {cs : List Char} {after : Place}
    (h : scanString quote codes skip cs offset = some (read, after)) :
    Enters (Place.advance ⟨cs, offset⟩ skip) after := by
  induction cs generalizing codes skip offset with
  | nil =>
      obtain ⟨-, rfl⟩ := Prod.mk.inj (Option.some.inj h)
      rw [Place.advance_nil]
      exact .refl _
  | cons c rest ih =>
      cases skip with
      | succ k => exact ih h
      | zero =>
          rw [scanString] at h
          split at h
          · next hc =>
              subst hc
              obtain ⟨-, rfl⟩ := Prod.mk.inj (Option.some.inj h)
              have hmark : c.utf8Size = 1 ∧ c ≠ '\r' := by rcases hquote with rfl | rfl <;> decide
              exact .cons hmark.1 (.inl hmark.2) (.refl _)
          · split at h
            · obtain ⟨-, rfl⟩ := Prod.mk.inj (Option.some.inj h)
              exact .refl _
            · next hline =>
                split at h
                · next hc =>
                    subst hc
                    split at h
                    · next hescape =>
                        exact .cons rfl (.inl (by decide)) ((enters_escape _ hescape).trans (ih h))
                    · contradiction
                · exact .cons rfl (.inl fun hc => hline (.inr hc)) (ih h)

theorem reaches_scanString {quote : Char} (hquote : quote = '\x22' ∨ quote = '\x27')
    {codes read : List Nat} {skip offset : Nat} {cs : List Char} {after : Place}
    (h : scanString quote codes skip cs offset = some (read, after)) : Reaches ⟨cs, offset⟩ after :=
  (Place.reaches_advance _ skip).trans (enters_scanString hquote h).reaches

/-- A text of a template ends at a place behind which stands what ended it. -/
theorem enters_scanTemplate {seen text : List Char} {escaped : Bool} {cs : List Char} {offset : Nat}
    {how : TemplateEnd} {after : Place}
    (h : scanTemplate seen escaped cs offset = some (text, how, after)) :
    ∃ stop : Place, Enters ⟨cs, offset⟩ stop ∧ stop.Enters after ∧
      after.offset = stop.offset + (if how == .backtick then 1 else 2) := by
  -- What ends a text is no line feed, so it suffices that the place is reached.
  suffices hstop : ∃ stop : Place, Reaches ⟨cs, offset⟩ stop ∧ stop.rest.head? ≠ some '\n' ∧
      stop.Enters after ∧ after.offset = stop.offset + (if how == .backtick then 1 else 2) by
    obtain ⟨stop, hreaches, hfeed, hend⟩ := hstop
    exact ⟨stop, hreaches.enters hfeed, hend⟩
  induction cs generalizing seen escaped offset with
  | nil => contradiction
  | cons c rest ih =>
      have hnext {seen escaped} (h : scanTemplate seen escaped rest (offset + c.utf8Size) =
          some (text, how, after)) : ∃ stop : Place, Reaches ⟨c :: rest, offset⟩ stop ∧
            stop.rest.head? ≠ some '\n' ∧ stop.Enters after ∧
              after.offset = stop.offset + (if how == .backtick then 1 else 2) := by
        obtain ⟨stop, hstop, hend⟩ := ih h
        exact ⟨stop, .cons rfl hstop, hend⟩
      rw [scanTemplate] at h
      split at h
      · exact hnext h
      · split at h
        · next hc =>
            subst hc
            obtain ⟨-, rfl, rfl⟩ := Option.some.inj h
            refine ⟨_, .refl _, nofun, .cons rfl (.inl (by decide)) (.refl _), rfl⟩
        · split at h
          · next hc =>
              obtain ⟨rfl, hbrace⟩ := hc
              obtain ⟨-, rfl, rfl⟩ := Option.some.inj h
              obtain ⟨tail, rfl⟩ := List.head?_eq_some_iff.mp hbrace
              refine ⟨_, .refl _, nofun, .cons rfl (.inl (by decide)) ?_, rfl⟩
              exact .cons (rfl : '\x7b'.utf8Size = 1) (.inl (by decide)) (.refl _)
          · exact hnext h

theorem enters_scanRegularExpression {inClass escaped : Bool} {cs : List Char} {offset : Nat}
    {after : Place} (h : scanRegularExpression inClass escaped cs offset = some after) :
    Enters ⟨cs, offset⟩ after := by
  induction cs generalizing inClass escaped offset with
  | nil => contradiction
  | cons c rest ih =>
      rw [scanRegularExpression] at h
      split at h
      · contradiction
      · next hline =>
          have hreturn : c ≠ '\r' ∨ rest.head? ≠ some '\n' := by
            refine .inl ?_
            rintro rfl
            exact hline rfl
          split at h
          · exact .cons rfl hreturn (ih h)
          · split at h
            · next hc => exact .cons (congrArg Char.utf8Size hc) hreturn (ih h)
            · split at h
              · next hc => exact .cons (congrArg Char.utf8Size hc) hreturn (ih h)
              · split at h
                · next hc => exact .cons (congrArg Char.utf8Size hc) hreturn (ih h)
                · split at h
                  · next hc =>
                      obtain rfl := Option.some.inj h
                      refine .cons (congrArg Char.utf8Size hc.1) hreturn ?_
                      cases hname : scanNameFrom Text.isIdentifierPart [] false 0 rest (offset + 1) with
                      | none => exact .refl _
                      | some name => exact enters_scanNameFrom isIdentifierPart_return hname
                  · exact .cons rfl hreturn (ih h)

/-! ### Elements -/

theorem exists_passes_of_scanElementText {seen text : List Char} {cs : List Char} {offset : Nat} {after : Place}
    (h : scanElementText seen cs offset = some (text, after)) :
    ∃ passed, text = seen.reverse ++ passed ∧ Place.Passes ⟨cs, offset⟩ passed after := by
  induction cs generalizing seen offset with
  | nil => contradiction
  | cons c rest ih =>
      rw [scanElementText] at h
      split at h
      · obtain ⟨rfl, rfl⟩ := Prod.mk.inj (Option.some.inj h)
        exact ⟨[], (List.append_nil _).symm, Place.passes_nil _⟩
      · obtain ⟨passed, rfl, hpassed⟩ := ih h
        exact ⟨c :: passed, by simp, hpassed.cons⟩

/-- The text of an element ends in front of a brace or a tag. -/
theorem head_scanElementText {seen text : List Char} {cs : List Char} {offset : Nat} {after : Place}
    (h : scanElementText seen cs offset = some (text, after)) {d : Char} (hd : d ≠ '\x7b' ∧ d ≠ '<') :
    after.rest.head? ≠ some d := by
  induction cs generalizing seen offset with
  | nil => contradiction
  | cons c rest ih =>
      rw [scanElementText] at h
      split at h
      · next hc =>
          obtain ⟨-, rfl⟩ := Prod.mk.inj (Option.some.inj h)
          intro hhead
          obtain rfl := Option.some.inj hhead
          exact hc.elim hd.1 hd.2
      · exact ih h

/-- The text of an element is what is passed. -/
theorem passes_scanElementText {text : List Char} {cs : List Char} {offset : Nat} {after : Place}
    (h : scanElementText [] cs offset = some (text, after)) : Place.Passes ⟨cs, offset⟩ text after := by
  obtain ⟨passed, htext, hpassed⟩ := exists_passes_of_scanElementText h
  rwa [htext]

theorem enters_scanElementText {text : List Char} {cs : List Char} {offset : Nat} {after : Place}
    (h : scanElementText [] cs offset = some (text, after)) : Enters ⟨cs, offset⟩ after :=
  Place.Reaches.enters ⟨text, passes_scanElementText h⟩ (head_scanElementText h (by decide))

/-- What is passed ends with the quote. -/
theorem enters_scanAttributeString {quote : Char} (hquote : quote = '\x22' ∨ quote = '\x27')
    {seen text : List Char} {cs : List Char} {offset : Nat} {after : Place}
    (h : scanAttributeString quote seen cs offset = some (text, after)) :
    Enters ⟨cs, offset⟩ after := by
  suffices hstop : ∃ stop : Place, Reaches ⟨cs, offset⟩ stop ∧ stop.rest.head? = some quote ∧
      stop.Enters after by
    obtain ⟨stop, hreaches, hhead, hend⟩ := hstop
    refine (hreaches.enters ?_).trans hend
    rw [hhead]
    rcases hquote with rfl | rfl <;> decide
  induction cs generalizing seen offset with
  | nil => contradiction
  | cons c rest ih =>
      rw [scanAttributeString] at h
      split at h
      · next hc =>
          subst hc
          obtain ⟨-, rfl⟩ := Prod.mk.inj (Option.some.inj h)
          have hmark : c.utf8Size = 1 ∧ c ≠ '\r' := by rcases hquote with rfl | rfl <;> decide
          exact ⟨_, .refl _, rfl, .cons hmark.1 (.inl hmark.2) (.refl _)⟩
      · obtain ⟨stop, hstop, hend⟩ := ih h
        exact ⟨stop, .cons rfl hstop, hend⟩

/-! ### Numbers -/

theorem enters_scanBased {test : Char → Bool} (htest : IsNarrow test) {p after : Place}
    (h : scanBased test p = some after) : p.Enters after := by
  simp only [scanBased] at h
  split at h
  · obtain rfl := Option.some.inj h
    exact enters_dropDigits htest.orGap p
  · contradiction

theorem enters_scanExponent {p after : Place} {found : Bool}
    (h : scanExponent p = some (found, after)) : p.Enters after := by
  have hbehind {digits : Place} (hdigits : p.Enters digits)
      (h : (if digits.rest.head?.any isDigit then some (true, dropDigits isDigitOrGap digits) else none) =
        some (found, after)) : p.Enters after := by
    split at h
    · obtain ⟨-, rfl⟩ := Prod.mk.inj (Option.some.inj h)
      exact hdigits.trans (enters_dropDigits isNarrow_isDigit.orGap digits)
    · contradiction
  obtain ⟨cs, offset⟩ := p
  unfold scanExponent at h
  split at h
  · next e rest hrest =>
      obtain rfl : cs = e :: rest := hrest
      split at h
      · next he =>
          have hmark : e.utf8Size = 1 ∧ e ≠ '\r' := by rcases he with rfl | rfl <;> decide
          refine hbehind (.cons hmark.1 (.inl hmark.2) ?_) h
          split
          · next sign rest' =>
              split
              · next hsign =>
                  have hmark : sign.utf8Size = 1 ∧ sign ≠ '\r' := by rcases hsign with rfl | rfl <;> decide
                  exact .cons hmark.1 (.inl hmark.2) (.refl _)
              · exact .refl _
          · exact .refl _
      · obtain ⟨-, rfl⟩ := Prod.mk.inj (Option.some.inj h)
        exact .refl _
  · obtain ⟨-, rfl⟩ := Prod.mk.inj (Option.some.inj h)
    exact .refl _

theorem enters_scanNumber_integer (p : Place) : p.Enters (scanNumber.integer p).2 := by
  obtain ⟨cs, offset⟩ := p
  unfold scanNumber.integer
  split
  · next rest hrest =>
      obtain rfl : cs = 'n' :: rest := hrest
      exact .cons (rfl : 'n'.utf8Size = 1) (.inl (by decide)) (.refl _)
  · exact .refl _

theorem kind_scanNumber_integer (p : Place) :
    (scanNumber.integer p).1 = .number ∨ (scanNumber.integer p).1 = .bigint := by
  unfold scanNumber.integer
  split
  · exact .inr rfl
  · exact .inl rfl

/-- What a reader of a number gives, and a place further on. -/
structure ReadsNumber (p : Place) (kind : TokenKind) (after : Place) : Prop where
  enters : p.Enters after
  isNumber : kind = .number ∨ kind = .bigint

theorem ReadsNumber.notMark {p after : Place} {kind : TokenKind} (h : ReadsNumber p kind after)
    (m : Mark) : kind ≠ .mark m := by
  rcases h.isNumber with rfl | rfl
  · nofun
  · nofun

theorem ReadsNumber.notString {p after : Place} {kind : TokenKind} (h : ReadsNumber p kind after)
    (value : Option String) : kind ≠ .string value := by
  rcases h.isNumber with rfl | rfl
  · nofun
  · nofun

theorem readsNumber_integer {p digits : Place} (h : p.Enters digits) :
    ReadsNumber p (scanNumber.integer digits).1 (scanNumber.integer digits).2 :=
  ⟨h.trans (enters_scanNumber_integer digits), kind_scanNumber_integer digits⟩

theorem reads_scanNumber_scanBody {p after : Place} {kind : TokenKind}
    (h : scanNumber.scanBody p = some (kind, after)) : ReadsNumber p kind after := by
  have hbased {test : Char → Bool} {base : Char} {rest : List Char} (htest : IsNarrow test)
      (hbase : base ≠ '\r') (hrest : p.rest = '0' :: base :: rest)
      (h : (scanBased test (p.advance 2)).map scanNumber.integer = some (kind, after)) :
      ReadsNumber p kind after := by
    obtain ⟨digits, hdigits, hinteger⟩ := Option.map_eq_some_iff.mp h
    obtain ⟨rfl, rfl⟩ := Prod.mk.inj hinteger
    have hmark : p.Enters (p.advance 2) := by
      refine Place.enters_advance p.offset fun c hc => ?_
      rw [hrest] at hc
      rcases List.mem_cons.mp hc with rfl | hc
      · decide
      · rwa [List.mem_singleton.mp hc]
    exact readsNumber_integer (hmark.trans (enters_scanBased htest hdigits))
  have hoctal : IsNarrow fun c => 48 ≤ c.toNat && c.toNat ≤ 55 := by
    refine isNarrow_of_toNat (by decide) fun c hc => ?_
    simp only [Bool.and_eq_true, decide_eq_true_eq] at hc
    omega
  have hbinary : IsNarrow fun c => c = '0' || c = '1' := by
    intro c hc
    simp only [Bool.or_eq_true, decide_eq_true_eq] at hc
    rcases hc with rfl | rfl <;> decide
  unfold scanNumber.scanBody at h
  split at h
  · next hrest => exact hbased isNarrow_hexValue? (by decide) hrest h
  · next hrest => exact hbased isNarrow_hexValue? (by decide) hrest h
  · next hrest => exact hbased hoctal (by decide) hrest h
  · next hrest => exact hbased hoctal (by decide) hrest h
  · next hrest => exact hbased hbinary (by decide) hrest h
  · next hrest => exact hbased hbinary (by decide) hrest h
  · dsimp only at h
    have hwhole := enters_dropDigits isNarrow_isDigit.orGap p
    split at h
    · obtain ⟨rfl, rfl⟩ := Prod.mk.inj (Option.some.inj h)
      exact ⟨hwhole, .inl rfl⟩
    · obtain ⟨⟨found, place⟩, hexponent, h⟩ := Option.bind_eq_some_iff.mp h
      have hplace : p.Enters place := by
        refine hwhole.trans (Place.Enters.trans ?_ (enters_scanExponent hexponent))
        split
        · next rest hrest =>
            refine Place.Enters.trans ?_ (enters_dropDigits isNarrow_isDigit.orGap ⟨rest, _ + 1⟩)
            exact .of_rest (c := '.') hrest (by decide)
        · exact .refl _
      have hend {isNumber : Bool}
          (h : (if isNumber then some (.number, place) else some (scanNumber.integer place)) =
            some (kind, after)) : ReadsNumber p kind after := by
        split at h
        · obtain ⟨rfl, rfl⟩ := Prod.mk.inj (Option.some.inj h)
          exact ⟨hplace, .inl rfl⟩
        · obtain ⟨rfl, rfl⟩ := Prod.mk.inj (Option.some.inj h)
          exact readsNumber_integer hplace
      exact hend h

theorem reads_scanNumber {p after : Place} {kind : TokenKind}
    (h : scanNumber p = some (kind, after)) : ReadsNumber p kind after := by
  obtain ⟨⟨read, place⟩, hbody, h⟩ := Option.bind_eq_some_iff.mp h
  have hread := reads_scanNumber_scanBody hbody
  simp only at h
  split at h
  · split at h
    · contradiction
    · obtain ⟨rfl, rfl⟩ := Prod.mk.inj (Option.some.inj h)
      exact hread
  · obtain ⟨rfl, rfl⟩ := Prod.mk.inj (Option.some.inj h)
    exact hread

/-! ## Tokens -/

theorem not_return_of_take_markAt {cs : List Char} {m : Mark} {n : Nat} (h : markAt cs = some (m, n)) :
    ∀ c ∈ cs.take n, c ≠ '\r' := by
  unfold markAt at h
  split at h
  all_goals first | contradiction | (cases h; simp) | (split at h <;> cases h <;> simp)

/-- A token that begins neither at a line end nor in the middle of one. -/
theorem enters_tokenAt {p : Place} (h : p.rest.head? ≠ some '\r') : p.Enters (tokenAt p).2 := by
  obtain ⟨cs, offset⟩ := p
  unfold tokenAt
  split
  · exact .refl _
  · next c rest hrest =>
      obtain rfl : cs = c :: rest := hrest
      split
      · next hquote =>
          have hmark : c.utf8Size = 1 ∧ c ≠ '\r' := by rcases hquote with rfl | rfl <;> decide
          split
          · next hscan => exact .cons hmark.1 (.inl hmark.2) (enters_scanString hquote hscan)
          · exact .refl _
      · split
        · cases hnumber : scanNumber ⟨c :: rest, offset⟩ with
          | none => exact .refl _
          | some found => exact (reads_scanNumber hnumber).enters
        · split
          · next hname => exact enters_scanName hname
          · split
            · split
              · next hname => exact (Place.enters_skip h).trans (enters_scanName hname)
              · exact Place.enters_skip h
            · split
              · next hmark => exact Place.enters_advance offset (not_return_of_take_markAt hmark)
              · exact .refl _

/-- The marks that a reader looks for in the text. -/
def Mark.sign? : Mark → Option Char
  | .slash => some '/'
  | .leftBrace => some '\x7b'
  | _ => none

theorem head_of_markAt {cs : List Char} {m : Mark} {n : Nat} {sign : Char}
    (h : markAt cs = some (m, n)) (hsign : m.sign? = some sign) : ∃ rest, cs = sign :: rest := by
  unfold markAt at h
  split at h
  all_goals first
    | contradiction
    | (cases h; first | contradiction | (cases hsign; exact ⟨_, rfl⟩))
    | (split at h <;> cases h <;> contradiction)

/-- A mark is read where it stands. -/
theorem head_of_tokenAt {p : Place} {m : Mark} {sign : Char} (h : (tokenAt p).1 = .mark m)
    (hsign : m.sign? = some sign) : ∃ rest, p.rest = sign :: rest := by
  unfold tokenAt at h
  split at h
  · contradiction
  · split at h
    · split at h <;> contradiction
    · split at h
      · cases hnumber : scanNumber p with
        | none => simp [hnumber] at h
        | some found =>
            rw [hnumber] at h
            exact absurd h ((reads_scanNumber hnumber).notMark _)
      · split at h
        · contradiction
        · split at h
          · split at h <;> cases h
            contradiction
          · split at h
            · next hmark =>
                cases h
                exact head_of_markAt hmark hsign
            · contradiction

/-- A string takes up its quote at least. -/
theorem lt_of_tokenAt {p : Place} {value : Option String} (h : (tokenAt p).1 = .string value) :
    p.offset < (tokenAt p).2.offset := by
  unfold tokenAt at h ⊢
  split at h
  · contradiction
  · next c rest _ =>
      split at h
      · next hquote =>
          cases hscan : scanString c [] 0 rest (p.offset + 1) with
          | none =>
              rw [hscan] at h
              contradiction
          | some found =>
              rw [if_pos hquote]
              exact (reaches_scanString hquote hscan).le
      · split at h
        · cases hnumber : scanNumber p with
          | none => simp [hnumber] at h
          | some found =>
              rw [hnumber] at h
              exact absurd h ((reads_scanNumber hnumber).notString value)
        · split at h
          · contradiction
          · split at h
            · split at h <;> contradiction
            · split at h <;> contradiction

end Localization.Source
