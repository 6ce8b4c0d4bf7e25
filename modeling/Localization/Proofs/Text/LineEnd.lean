import Localization.Text.Quoted
import Localization.Text.Line

/-!
What stands in front of the line feeds of a text. A text may have a carriage return in front of each of them,
or in front of none. Main definition: `EachFeed`.
-/

namespace Localization.Text

variable {good : Option Char → Prop} {before after : Option Char} {text more source : List Char}

/-- The character in front of each line feed of a text, or that there is none, is good. -/
def EachFeed (good : Option Char → Prop) (text : List Char) : Prop :=
  ∀ front back, text = front ++ '\n' :: back → good front.getLast?

/-- The same of a text that is written behind a character. -/
def EachFeedBehind (good : Option Char → Prop) : Option Char → List Char → Prop
  | _, [] => True
  | before, c :: rest => (c = '\n' → good before) ∧ EachFeedBehind good (some c) rest

theorem eachFeedBehind_iff : EachFeedBehind good before text ↔
    ∀ front back, text = front ++ '\n' :: back → good (front.getLast?.or before) := by
  induction text generalizing before with
  | nil => simp [EachFeedBehind]
  | cons c rest ih =>
      rw [EachFeedBehind, ih]
      constructor
      · rintro ⟨hfirst, hrest⟩ front back hsplit
        cases front with
        | nil => exact hfirst (List.cons.inj hsplit).1
        | cons d front =>
            rw [List.cons_append, List.cons.injEq] at hsplit
            obtain ⟨rfl, hsplit⟩ := hsplit
            rw [List.getLast?_cons, Option.some_or, ← Option.or_some]
            exact hrest front back hsplit
      · intro h
        refine ⟨?_, fun front back hsplit => ?_⟩
        · rintro rfl
          exact h [] rest rfl
        · have hgood := h (c :: front) back (congrArg (c :: ·) hsplit)
          rwa [List.getLast?_cons, Option.some_or, ← Option.or_some] at hgood

theorem eachFeed_iff : EachFeed good text ↔ EachFeedBehind good none text := by
  simp only [EachFeed, eachFeedBehind_iff, Option.or_none]

instance decidableEachFeedBehind (good : Option Char → Prop) [DecidablePred good] :
    (before : Option Char) → (text : List Char) → Decidable (EachFeedBehind good before text)
  | _, [] => inferInstanceAs (Decidable True)
  | before, c :: rest =>
    have := decidableEachFeedBehind good (some c) rest
    inferInstanceAs (Decidable ((c = '\n' → good before) ∧ EachFeedBehind good (some c) rest))

instance (good : Option Char → Prop) [DecidablePred good] (text : List Char) :
    Decidable (EachFeed good text) :=
  decidable_of_iff _ eachFeed_iff.symm

theorem eachFeedBehind_append : EachFeedBehind good before (text ++ more) ↔
    EachFeedBehind good before text ∧ EachFeedBehind good (text.getLast?.or before) more := by
  induction text generalizing before with
  | nil => simp [EachFeedBehind]
  | cons c rest ih =>
      rw [List.cons_append, EachFeedBehind, EachFeedBehind, ih, and_assoc, List.getLast?_cons, Option.some_or,
        ← Option.or_some]

/-- Only a line feed at its start depends on what a text is written behind. -/
theorem EachFeedBehind.moved (h : EachFeedBehind good before text)
    (hstart : text.head? = some '\n' → good after) : EachFeedBehind good after text := by
  cases text with
  | nil => trivial
  | cons c rest =>
      refine ⟨?_, h.2⟩
      rintro rfl
      exact hstart rfl

theorem EachFeedBehind.good_of_head? (h : EachFeedBehind good before text)
    (hstart : text.head? = some '\n') : good before := by
  obtain ⟨rest, rfl⟩ := List.head?_eq_some_iff.mp hstart
  exact h.1 rfl

/-- A text within a line. -/
def OneLine (text : List Char) : Prop :=
  ∀ c ∈ text, c ≠ '\n' ∧ c ≠ '\r'

instance (text : List Char) : Decidable (OneLine text) :=
  inferInstanceAs (Decidable (∀ c ∈ text, _))

@[simp]
theorem oneLine_nil : OneLine [] :=
  nofun

@[simp]
theorem oneLine_cons {c : Char} : OneLine (c :: text) ↔ (c ≠ '\n' ∧ c ≠ '\r') ∧ OneLine text :=
  List.forall_mem_cons

@[simp]
theorem oneLine_append : OneLine (text ++ more) ↔ OneLine text ∧ OneLine more :=
  List.forall_mem_append

theorem OneLine.eachFeedBehind (h : OneLine text) : EachFeedBehind good before text := by
  refine eachFeedBehind_iff.mpr fun front back hsplit => ?_
  subst hsplit
  exact absurd rfl (h '\n' (by simp)).1

theorem eachFeedBehind_of_noReturn (h : '\r' ∉ text) (hbefore : before ≠ some '\r') :
    EachFeedBehind (· ≠ some '\r') before text := by
  refine eachFeedBehind_iff.mpr fun front back hsplit hreturn => ?_
  rcases Option.or_eq_some_iff.mp hreturn with hlast | ⟨-, hlast⟩
  · subst hsplit
    exact h (List.mem_append_left _ (List.mem_of_getLast? hlast))
  · exact hbefore hlast

/-! ### The line ending in use -/

/-- Where line feeds follow carriage returns, the line ending in use has both. -/
theorem lineEnding_of_returned (h : EachFeedBehind (· = some '\r') before source)
    (hbefore : before = some '\r' → source.head? ≠ some '\n') (hfeed : '\n' ∈ source) :
    lineEnding source = "\r\n" := by
  fun_induction lineEnding source generalizing before with
  | case1 => rfl
  | case2 rest => exact absurd rfl (hbefore (h.1 rfl))
  | case3 c rest hpair hother ih =>
      refine ih h.2 ?_ ((List.mem_cons.mp hfeed).resolve_left fun hc => hother hc.symm)
      intro hc hhead
      obtain ⟨more, rfl⟩ := List.head?_eq_some_iff.mp hhead
      exact hpair more (Option.some.inj hc) rfl
  | case4 => contradiction

/-- Where no line feed follows a carriage return, the line ending in use is the line feed. -/
theorem lineEnding_of_bare (h : EachFeedBehind (· ≠ some '\r') before source) : lineEnding source = "\n" := by
  fun_induction lineEnding source generalizing before with
  | case1 rest => exact absurd rfl (h.2.1 rfl)
  | case2 => rfl
  | case3 c rest _ _ ih => exact ih h.2
  | case4 => rfl

/-! ### Texts within a line -/

theorem oneLine_escape (c : Char) : OneLine (Quoted.escape c) := by
  have hdigit : ∀ n < 16, Quoted.hexDigit n ≠ '\n' ∧ Quoted.hexDigit n ≠ '\r' := by decide
  have hletter : ∀ letter, letter ≠ '\n' ∧ letter ≠ '\r' → OneLine ['\\', letter] := by
    intro letter h
    simp only [oneLine_cons, oneLine_nil, and_true]
    exact ⟨by decide, h⟩
  unfold Quoted.escape
  split
  · exact hletter '\x22' (by decide)
  split
  · exact hletter '\\' (by decide)
  split
  · next hprinted =>
      rintro d hd
      obtain rfl := List.mem_singleton.mp hd
      constructor
      · rintro rfl
        exact absurd hprinted (by decide)
      · rintro rfl
        exact absurd hprinted (by decide)
  split
  · exact hletter 'b' (by decide)
  split
  · exact hletter 't' (by decide)
  split
  · exact hletter 'n' (by decide)
  split
  · exact hletter 'f' (by decide)
  split
  · exact hletter 'r' (by decide)
  · simp only [oneLine_cons, oneLine_nil, and_true]
    exact ⟨by decide, by decide, by decide, by decide, hdigit _ (by omega), hdigit _ (by omega)⟩

@[simp]
theorem oneLine_encode (text : String) : OneLine (Quoted.encode text).toList := by
  have hchars : OneLine (Quoted.encodeChars text.toList) := by
    intro c hc
    obtain ⟨d, -, hc⟩ := List.mem_flatMap.mp hc
    exact oneLine_escape d c hc
  rw [Quoted.encode, String.toList_ofList, List.cons_append]
  refine List.forall_mem_cons.mpr ⟨by decide, List.forall_mem_append.mpr ⟨hchars, ?_⟩⟩
  exact List.forall_mem_singleton.mpr (by decide)

@[simp]
theorem oneLine_lineIndent (source : List Char) (offset : Nat) : OneLine (lineIndent source offset) := by
  intro c hc
  have hindent := List.all_eq_true.mp List.all_takeWhile c hc
  simp only [Bool.or_eq_true, decide_eq_true_eq] at hindent
  rcases hindent with rfl | rfl <;> decide

end Localization.Text
