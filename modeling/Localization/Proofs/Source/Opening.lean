import Localization.Proofs.Json.Opening
import Localization.Proofs.Source.Grammar.Opening
import Localization.Source.Grammar.Module

/-!
Sources that begin as the text of an object does: an opening brace and a string. Both readers agree on
where the string ends. Main statement: `clear_of_parseModule`.
-/

namespace Localization.Source

open Json.Reader (IsBlank)
open Json (stringState)
open Text (byteLength byteLength_append)

/-! ## Blanks and marks -/

theorem exists_skipBlanks {blanks : List Char} (h : ∀ b ∈ blanks, IsBlank b) (newline : Bool)
    (rest : List Char) (offset : Nat) : ∃ newline',
    skipBlanks .outside newline (blanks ++ rest) offset =
      skipBlanks .outside newline' rest (offset + byteLength blanks) := by
  induction blanks generalizing newline offset with
  | nil => exact ⟨newline, rfl⟩
  | cons b blanks ih =>
      obtain ⟨newline', heq⟩ : ∃ newline', skipBlanks .outside newline (b :: (blanks ++ rest)) offset =
          skipBlanks .outside newline' (blanks ++ rest) (offset + b.utf8Size) := by
        rcases h b List.mem_cons_self with rfl | rfl | rfl | rfl
        · exact ⟨newline, rfl⟩
        · exact ⟨true, rfl⟩
        · exact ⟨newline, rfl⟩
        · exact ⟨true, rfl⟩
      obtain ⟨last, hlast⟩ := ih (fun c hc => h c (List.mem_cons_of_mem b hc)) newline' (offset + b.utf8Size)
      exact ⟨last, by rw [List.cons_append, heq, hlast, byteLength, Nat.add_assoc]⟩

theorem nextToken_blanks {blanks : List Char} (h : ∀ b ∈ blanks, IsBlank b) {first : Char}
    (rest : List Char) (hfirst : first = '\x7b' ∨ first = '\x22' ∨ first = ':') (lineStart : Bool)
    (offset : Nat) : ∃ newline,
    nextToken lineStart ⟨blanks ++ first :: rest, offset⟩ =
      { token := ⟨(tokenAt ⟨first :: rest, offset + byteLength blanks⟩).1,
          ⟨offset + byteLength blanks, (tokenAt ⟨first :: rest, offset + byteLength blanks⟩).2.offset⟩,
          newline⟩
        start := first :: rest
        after := (tokenAt ⟨first :: rest, offset + byteLength blanks⟩).2 } := by
  obtain ⟨newline, heq⟩ := exists_skipBlanks h lineStart (first :: rest) offset
  have hstop : skipBlanks .outside newline (first :: rest) (offset + byteLength blanks) =
      ⟨⟨first :: rest, offset + byteLength blanks⟩, newline⟩ := by
    rcases hfirst with rfl | rfl | rfl <;> rfl
  exact ⟨newline, by rw [nextToken, heq, hstop]⟩

theorem tokenAt_leftBrace (rest : List Char) (offset : Nat) :
    tokenAt ⟨'\x7b' :: rest, offset⟩ = (.mark .leftBrace, ⟨rest, offset + 1⟩) := by
  rfl

theorem tokenAt_colon (rest : List Char) (offset : Nat) :
    tokenAt ⟨':' :: rest, offset⟩ = (.mark .colon, ⟨rest, offset + 1⟩) := by
  rfl

theorem tokenAt_quote (rest : List Char) (offset : Nat) : tokenAt ⟨'\x22' :: rest, offset⟩ =
    match scanString '\x22' [] 0 rest (offset + 1) with
    | some (codes, after) => (.string (stringValue codes), after)
    | none => (.invalid, ⟨'\x22' :: rest, offset⟩) := by
  rfl

/-! ## Strings -/

/-- Characters that neither end a string nor begin an escape in one. -/
def IsInner (c : Char) : Prop :=
  c ≠ '\x22' ∧ c ≠ '\\'

theorem isInner_of_hexValue? {c : Char} {n : Nat} (h : Text.Quoted.hexValue? c = some n) : IsInner c :=
  (Json.Reader.isPlain_of_hexValue? h).2

theorem isInner_of_octalValue? {c : Char} {n : Nat} (h : octalValue? c = some n) : IsInner c := by
  unfold octalValue? at h
  split at h
  · next hdigit =>
      simp only [Bool.and_eq_true, decide_eq_true_eq] at hdigit
      refine ⟨?_, ?_⟩
      · rintro rfl
        exact absurd hdigit.1 (by decide)
      · rintro rfl
        exact absurd hdigit.2 (by decide)
  · contradiction

theorem isInner_of_hexNumber? {digits : List Char} {n : Nat} (h : hexNumber? digits = some n) :
    ∀ c ∈ digits, IsInner c := by
  have hfold (start : Option Nat) (digits : List Char) {n : Nat}
      (h : digits.foldl (fun n c => do some (16 * (← n) + (← Text.Quoted.hexValue? c))) start = some n) :
      (∃ m, start = some m) ∧ ∀ c ∈ digits, IsInner c := by
    induction digits generalizing start with
    | nil => exact ⟨⟨n, h⟩, by simp⟩
    | cons c digits ih =>
        obtain ⟨⟨m, hm⟩, hrest⟩ := ih _ h
        obtain ⟨k, rfl, hstep⟩ := Option.bind_eq_some_iff.mp hm
        obtain ⟨v, hv, -⟩ := Option.bind_eq_some_iff.mp hstep
        exact ⟨⟨k, rfl⟩, by simpa using ⟨isInner_of_hexValue? hv, hrest⟩⟩
  exact (hfold (some 0) digits h).2

theorem inner_of_octalEscape {e : Char} {rest : List Char}
    (he : (octalValue? e).isSome = true) : 0 < (octalEscape (e :: rest)).2 ∧
      ∀ c ∈ (e :: rest).take (octalEscape (e :: rest)).2, IsInner c := by
  have hvalues : ∀ c ∈ ((e :: rest).take 3).takeWhile fun c => (octalValue? c).isSome,
      ∃ n, octalValue? c = some n :=
    fun c hc => Option.isSome_iff_exists.mp (List.mem_takeWhile_imp (p := fun c => (octalValue? c).isSome) hc)
  have hprefix : ((e :: rest).take 3).takeWhile (fun c => (octalValue? c).isSome) <+: e :: rest :=
    (List.takeWhile_prefix _).trans (List.take_prefix 3 _)
  have hcount : (((e :: rest).take 3).takeWhile (fun c => (octalValue? c).isSome)).length ≤ 3 :=
    Nat.le_trans (List.takeWhile_prefix _).length_le (by simp)
  have hfirst : ((e :: rest).take 3).takeWhile (fun c => (octalValue? c).isSome) ≠ [] := by
    simp [he]
  unfold octalEscape
  generalize ((e :: rest).take 3).takeWhile (fun c => (octalValue? c).isSome) = digits at *
  obtain ⟨behind, hbehind⟩ := hprefix
  rw [← hbehind]
  -- There are one, two or three digits, and the third may be left over.
  match digits, hfirst, hcount with
  | [a], _, _ =>
      obtain ⟨x, hx⟩ := hvalues a (by simp)
      simp [hx, isInner_of_octalValue? hx]
  | [a, b], _, _ =>
      obtain ⟨x, hx⟩ := hvalues a (by simp)
      obtain ⟨y, hy⟩ := hvalues b (by simp)
      simp [hx, hy, isInner_of_octalValue? hx, isInner_of_octalValue? hy]
  | [a, b, c], _, _ =>
      obtain ⟨x, hx⟩ := hvalues a (by simp)
      obtain ⟨y, hy⟩ := hvalues b (by simp)
      obtain ⟨z, hz⟩ := hvalues c (by simp)
      by_cases hsmall : x ≤ 3 <;>
        simp [hx, hy, hz, hsmall, isInner_of_octalValue? hx, isInner_of_octalValue? hy,
          isInner_of_octalValue? hz]

/-- The digits of a code point with the braces around them. -/
theorem mem_of_mem_take_takeWhile {rest : List Char} {c : Char}
    (h : c ∈ (List.take ((rest.takeWhile (· != '\x7d')).length + 3) ('u' :: '\x7b' :: rest)).drop 1) :
    c = '\x7b' ∨ c = '\x7d' ∨ c ∈ rest.takeWhile (· != '\x7d') := by
  rw [List.take_succ_cons, List.take_succ_cons, List.drop_succ_cons, List.drop_zero] at h
  refine (List.mem_cons.mp h).imp_right fun h => ?_
  have hsplit : rest.takeWhile (· != '\x7d') ++ rest.dropWhile (· != '\x7d') = rest :=
    List.takeWhile_append_dropWhile
  have hbrace := List.head?_dropWhile_not (· != '\x7d') rest
  generalize rest.takeWhile (· != '\x7d') = digits at *
  generalize rest.dropWhile (· != '\x7d') = behind at *
  rw [← hsplit, List.take_length_add_append] at h
  refine (List.mem_append.mp h).symm.imp_left fun h => ?_
  cases behind with
  | nil => simp at h
  | cons d behind => simp_all

/-- An escape has a letter, and what follows the letter in it is inside the string. -/
theorem inner_of_escapeAt {rest : List Char} {codes : List Nat} {length : Nat}
    (h : escapeAt rest = some (codes, length)) :
    0 < length ∧ ∀ c ∈ (rest.take length).drop 1, IsInner c := by
  unfold escapeAt at h
  split at h
  · contradiction
  · cases h
    exact ⟨by decide, by simp [IsInner]⟩
  · next rest =>
      dsimp only at h
      split at h
      · next n hn =>
          split at h
          · contradiction
          · next hdigits =>
              cases h
              refine ⟨by omega, fun c hc => ?_⟩
              rcases mem_of_mem_take_takeWhile hc with rfl | rfl | hdigit
              · simp [IsInner]
              · simp [IsInner]
              · exact isInner_of_hexNumber? hn c hdigit
      · contradiction
  · split at h
    · obtain ⟨n, hn, h⟩ := Option.map_eq_some_iff.mp h
      cases h
      exact ⟨by decide, isInner_of_hexNumber? hn⟩
    · contradiction
  · split at h
    · obtain ⟨n, hn, h⟩ := Option.map_eq_some_iff.mp h
      cases h
      exact ⟨by decide, isInner_of_hexNumber? hn⟩
    · contradiction
  · split at h
    · cases h
      exact ⟨by decide, by simp⟩
    · split at h
      · next hoctal =>
          cases h
          obtain ⟨hpos, hinner⟩ := inner_of_octalEscape hoctal
          exact ⟨hpos, fun c hc => hinner c (List.mem_of_mem_drop hc)⟩
      · cases h
        exact ⟨by decide, by simp⟩

/-- A reader of a string is to skip characters of an escape: the letter, if the backslash was the last
character, and characters that are inside the string. -/
structure Skips (escaped : Bool) (skip : Nat) (text : List Char) : Prop where
  letter : escaped = true → 0 < skip
  inner : ∀ c ∈ (text.take skip).drop escaped.toNat, IsInner c

theorem skips_zero (text : List Char) : Skips false 0 text :=
  ⟨nofun, by simp⟩

theorem Skips.tail {escaped : Bool} {skip : Nat} {c : Char} {text : List Char}
    (h : Skips escaped (skip + 1) (c :: text)) : Skips false skip text := by
  refine ⟨nofun, fun d hd => h.inner d ?_⟩
  cases escaped with
  | false => exact List.mem_cons_of_mem c hd
  | true => exact hd

/-- The reader of a string passes characters that may stand in the string of an object. -/
theorem exists_of_scanString {escaped state : Bool} {front back : List Char} {codes : List Nat}
    {skip offset : Nat} {found : List Nat × Place} (hstate : stringState escaped front = some state)
    (hskips : Skips escaped skip (front ++ back))
    (h : scanString '\x22' codes skip (front ++ back) offset = some found) :
    ∃ codes' skip', scanString '\x22' codes' skip' back (offset + byteLength front) = some found ∧
      Skips state skip' back := by
  induction front generalizing escaped codes skip offset with
  | nil =>
      cases hstate
      exact ⟨codes, skip, h, hskips⟩
  | cons c front ih =>
      rw [stringState] at hstate
      split at hstate
      · contradiction
      next hcontrol =>
      rw [byteLength, ← Nat.add_assoc]
      cases skip with
      | succ skip =>
          refine ih ?_ hskips.tail h
          cases escaped with
          | true => exact hstate
          | false =>
              obtain ⟨hquote, hbackslash⟩ : IsInner c := hskips.inner c (by simp)
              rwa [if_neg Bool.false_ne_true, if_neg hquote, decide_eq_false hbackslash] at hstate
      | zero =>
          obtain rfl : escaped = false := Bool.eq_false_iff.mpr fun h => absurd (hskips.letter h) (Nat.lt_irrefl 0)
          rw [if_neg Bool.false_ne_true] at hstate
          rw [List.cons_append, scanString] at h
          split at hstate
          · contradiction
          next hquote =>
          have hline : ¬(c = '\n' ∨ c = '\r') := by
            rintro (rfl | rfl) <;> exact hcontrol (by decide)
          rw [if_neg hquote, if_neg hline] at h
          by_cases hbackslash : c = '\\'
          · rw [if_pos hbackslash] at h
            split at h
            · next read length hescape =>
                obtain ⟨hpos, hinner⟩ := inner_of_escapeAt hescape
                subst hbackslash
                exact ih hstate ⟨fun _ => hpos, hinner⟩ h
            · contradiction
          · rw [if_neg hbackslash] at h
            rw [decide_eq_false hbackslash] at hstate
            exact ih hstate (skips_zero _) h

/-- Where the string of an object ends, a string of a source ends. -/
theorem scanString_of_quote {body tail : List Char} {offset : Nat} {codes : List Nat} {after : Place}
    (hbody : stringState false body = some false)
    (h : scanString '\x22' [] 0 (body ++ '\x22' :: tail) offset = some (codes, after)) :
    after = ⟨tail, offset + byteLength body + 1⟩ := by
  obtain ⟨codes', skip, h, hskips⟩ := exists_of_scanString hbody (skips_zero _) h
  cases skip with
  | zero =>
      cases h
      rfl
  | succ skip => exact absurd rfl (hskips.inner '\x22' (by simp)).1

/-- Behind characters that may stand in the string of an object, a string of a source only ends with its
line or with the text. -/
theorem scanString_of_open {body rest : List Char} {state : Bool} {offset : Nat} {codes : List Nat}
    {after : Place} (hbody : stringState false body = some state)
    (h : scanString '\x22' [] 0 (body ++ rest) offset = some (codes, after)) :
    offset + byteLength body ≤ after.offset ∧ (after.offset = offset + byteLength body →
      after.rest = rest ∧
        (rest = [] ∨ (state = false ∧ ∃ c tail, rest = c :: tail ∧ (c = '\n' ∨ c = '\r')))) := by
  obtain ⟨codes', skip, h, hskips⟩ := exists_of_scanString hbody (skips_zero _) h
  refine ⟨(reaches_scanString (.inl rfl) h).le, fun hend => ?_⟩
  cases rest with
  | nil =>
      cases h
      exact ⟨rfl, .inl rfl⟩
  | cons c tail =>
      -- Whatever is passed here makes the string longer.
      have hpassed {read : List Nat} {skip n : Nat} (hn : 0 < n)
          (h : scanString '\x22' read skip tail (offset + byteLength body + n) = some (codes, after)) :
          False := by
        have hle : offset + byteLength body + n ≤ after.offset := (reaches_scanString (.inl rfl) h).le
        omega
      cases skip with
      | succ skip => exact (hpassed c.utf8Size_pos h).elim
      | zero =>
          rw [scanString] at h
          split at h
          · obtain ⟨-, rfl⟩ := Prod.mk.inj (Option.some.inj h)
            exact absurd hend (Nat.ne_of_gt (Nat.lt_succ_self _))
          · split at h
            · next hline =>
                obtain ⟨-, rfl⟩ := Prod.mk.inj (Option.some.inj h)
                have hstate : state = false :=
                  Bool.eq_false_iff.mpr fun h => absurd (hskips.letter h) (Nat.lt_irrefl 0)
                exact ⟨rfl, .inr ⟨hstate, c, tail, rfl, hline⟩⟩
            · split at h
              · split at h
                · exact (hpassed Nat.one_pos h).elim
                · contradiction
              · exact (hpassed c.utf8Size_pos h).elim

/-! ## Modules -/

/-- The gap that a string fills. -/
@[reducible]
def stringGap (lo : Nat) (after : Place) : Gap where
  Front x := x ≤ lo
  next := (nextToken false after).token.span.lo
  Admits p := (nextToken false after).token.span.lo ≤ p.offset
  Stops x := after.offset ≤ x
  next_le h := h
  admits h hq := Nat.le_trans h hq.reaches.le
  stops h := Nat.le_trans (le_skipBlanks .outside false after.rest after.offset) h

/-- A module that holds a string as its only statement, in a block. -/
def Node.IsStringBlock (module : Node) : Prop :=
  ∃ whole outer inner value span, module = .mk .module whole [.mk .block outer
    [.mk .expressionStatement inner [.leaf (.string value) span]]]

theorem clear_of_parseModule {jsx : Bool} {outer inner rest : List Char} {module : Node}
    (houter : ∀ b ∈ outer, IsBlank b) (hinner : ∀ b ∈ inner, IsBlank b)
    (h : parseModule jsx (outer ++ '\x7b' :: (inner ++ '\x22' :: rest)) = .ok module) :
    ∃ codes after,
      scanString '\x22' [] 0 rest (byteLength outer + 1 + byteLength inner + 1) = some (codes, after) ∧
        module.Clear (stringGap (byteLength outer + 1 + byteLength inner) after) ∧
          ((nextToken false after).token.kind.isStop = true → module.IsStringBlock) := by
  have hstart : skipInterpreterLine (textStart (outer ++ '\x7b' :: (inner ++ '\x22' :: rest))) =
      ⟨outer ++ '\x7b' :: (inner ++ '\x22' :: rest), 0⟩ := by
    cases outer with
    | nil => rfl
    | cons b outer =>
        rcases houter b List.mem_cons_self with rfl | rfl | rfl | rfl <;> rfl
  obtain ⟨newline, hbrace⟩ := nextToken_blanks houter (inner ++ '\x22' :: rest) (.inl rfl) true 0
  obtain ⟨depth, c, c', htoken, hafter, hrun⟩ : ∃ depth c c',
      c.token = ⟨.mark .leftBrace, ⟨byteLength outer, byteLength outer + 1⟩, newline⟩ ∧
        c.after = ⟨inner ++ '\x22' :: rest, byteLength outer + 1⟩ ∧
          Parser.moduleBody depth c = .ok (module, c') := by
    rw [Nat.zero_add, tokenAt_leftBrace] at hbrace
    obtain ⟨c', hrun⟩ := Parser.parseModule_eq_ok_iff.mp h
    exact ⟨_, _, c', by rw [Parser.firstCursor, hstart, hbrace], by rw [Parser.firstCursor, hstart, hbrace],
      hrun⟩
  obtain ⟨newline', hquote⟩ := nextToken_blanks hinner rest (.inr (.inl rfl)) false
    (byteLength outer + 1)
  have hstring : nextToken false c.after = _ := hafter ▸ hquote
  have hscan := tokenAt_quote rest (byteLength outer + 1 + byteLength inner)
  -- A string that cannot be read makes an invalid token behind the brace, with which no statement begins.
  cases hscanned : scanString '\x22' [] 0 rest (byteLength outer + 1 + byteLength inner + 1) with
  | none =>
      rw [hscanned] at hscan
      refine absurd hrun (Parser.not_moduleBody_of_invalid (by rw [htoken]) ?_)
      change (nextToken false c.after).token.kind = .invalid
      rw [hstring, hscan]
  | some scanned =>
      obtain ⟨codes, after⟩ := scanned
      rw [hscanned] at hscan
      have hmoved : (c.movedTo c.after).token = ⟨.string (stringValue codes),
          ⟨byteLength outer + 1 + byteLength inner, after.offset⟩, newline'⟩ ∧
            (c.movedTo c.after).after = after := by
        change (nextToken false c.after).token = _ ∧ (nextToken false c.after).after = _
        rw [hstring, hscan]
        exact ⟨rfl, rfl⟩
      obtain ⟨htoken', hafter'⟩ := hmoved
      have hopens : Parser.OpensString (stringGap (byteLength outer + 1 + byteLength inner) after) c
          (stringValue codes) := by
        have hbehind : c.token.span.lo + 1 ≤ byteLength outer + 1 + byteLength inner := by
          rw [htoken]
          exact Nat.le_add_right _ _
        refine ⟨by rw [htoken], Nat.le_of_succ_le hbehind, hbehind, ?_⟩
        have hspan : (c.movedTo c.after).token.span =
            ⟨byteLength outer + 1 + byteLength inner, after.offset⟩ := by rw [htoken']
        refine ⟨by rw [htoken'], Nat.le_of_eq (congrArg Span.lo hspan),
          Nat.le_of_eq (congrArg Span.hi hspan).symm, ?_, ?_⟩
        · rw [hspan]
          exact (reaches_scanString (.inl rfl) hscanned).le
        rw [hafter']
        exact Cursor.behind_of_tokenAt (Nat.le_refl _) (head_skipBlanks _ _ _ _ rfl) (Nat.le_refl _) (le_skipBlanks ..) rfl rfl rfl rfl
      obtain ⟨hclear, hblock⟩ := Parser.clear_moduleBody (g := stringGap _ after) hopens (Nat.zero_le _) hrun
      refine ⟨codes, after, rfl, hclear, fun hstop => ?_⟩
      obtain ⟨whole, outer, inner, rfl⟩ := hblock (by rw [hafter']; exact hstop)
      exact ⟨whole, outer, inner, _, _, rfl⟩

end Localization.Source
