import Localization.Pattern.Selection
import Mathlib.Logic.Basic

/-!
Patterns with brace groups as sequences of characters and groups, nested to any depth. A pattern can be
read as such a sequence exactly where its braces are balanced. Main statement: `isBalanced_iff`.
-/

namespace Localization.Brace

/-- A character that stands for itself. Inside a group a comma ends an alternative. -/
def IsLiteral (isInside : Bool) (c : Char) : Prop :=
  c ≠ '\x7b' ∧ c ≠ '\x7d' ∧ (isInside = true → c ≠ ',')

mutual

/-- Characters and groups in a row, inside a group or outside all groups. -/
inductive Sequence : Bool → Type where
  | nil {isInside : Bool} : Sequence isInside
  | literal {isInside : Bool} (c : Char) (h : IsLiteral isInside c) (rest : Sequence isInside) :
      Sequence isInside
  | group {isInside : Bool} (alternatives : Alternatives) (rest : Sequence isInside) :
      Sequence isInside

/-- The alternatives of a group, of which there is at least one. -/
inductive Alternatives : Type where
  | last (s : Sequence true) : Alternatives
  | cons (s : Sequence true) (others : Alternatives) : Alternatives

end

mutual

/-- A sequence as it is written. -/
def Sequence.text {isInside : Bool} : Sequence isInside → List Char
  | .nil => []
  | .literal c _ rest => c :: rest.text
  | .group alternatives rest => '\x7b' :: (alternatives.text ++ '\x7d' :: rest.text)

def Alternatives.text : Alternatives → List Char
  | .last s => s.text
  | .cons s others => s.text ++ ',' :: others.text

end

mutual

/-- The texts that a sequence stands for. The first group varies slowest. -/
def Sequence.words {isInside : Bool} : Sequence isInside → List (List Char)
  | .nil => [[]]
  | .literal c _ rest => rest.words.map (c :: ·)
  | .group alternatives rest => alternatives.words.flatMap fun w => rest.words.map (w ++ ·)

def Alternatives.words : Alternatives → List (List Char)
  | .last s => s.words
  | .cons s others => s.words ++ others.words

end

/-- The number of open braces behind a text that stands in as many; `none` if a brace closes nothing. -/
def depthAfter? : Nat → List Char → Option Nat
  | depth, [] => some depth
  | depth, c :: rest =>
    if c = '\x7b' then depthAfter? (depth + 1) rest
    else if c = '\x7d' then
      match depth with
      | 0 => none
      | outer + 1 => depthAfter? outer rest
    else depthAfter? depth rest

/-- Each brace that opens is closed, and each that closes was opened. -/
def IsBalanced (pattern : List Char) : Prop :=
  depthAfter? 0 pattern = some 0

instance (pattern : List Char) : Decidable (IsBalanced pattern) :=
  inferInstanceAs (Decidable (depthAfter? 0 pattern = some 0))

variable {isInside : Bool} {depth : Nat} {c : Char} {cs rest : List Char}

theorem depthAfter?_open : depthAfter? depth ('\x7b' :: rest) = depthAfter? (depth + 1) rest := by
  simp [depthAfter?]

theorem depthAfter?_close : depthAfter? (depth + 1) ('\x7d' :: rest) = depthAfter? depth rest := by
  simp [depthAfter?]

theorem depthAfter?_literal (h : IsLiteral isInside c) :
    depthAfter? depth (c :: rest) = depthAfter? depth rest := by
  simp [depthAfter?, h.1, h.2.1]

theorem isLiteral_comma : IsLiteral false ',' := by
  simp [IsLiteral]

theorem char_cases (c : Char) : c = '\x7b' ∨ c = '\x7d' ∨ IsLiteral false c := by
  by_cases hopen : c = '\x7b'
  · exact .inl hopen
  by_cases hclose : c = '\x7d'
  · exact .inr (.inl hclose)
  · exact .inr (.inr ⟨hopen, hclose, by simp⟩)

theorem depthAfter?_append (depth : Nat) (cs rest : List Char) :
    depthAfter? depth (cs ++ rest) = (depthAfter? depth cs).bind (depthAfter? · rest) := by
  induction cs generalizing depth with
  | nil => rfl
  | cons c cs ih =>
      rw [List.cons_append]
      rcases char_cases c with rfl | rfl | hliteral
      · rw [depthAfter?_open, depthAfter?_open, ih]
      · cases depth with
        | zero => simp [depthAfter?]
        | succ outer => rw [depthAfter?_close, depthAfter?_close, ih]
      · rw [depthAfter?_literal hliteral, depthAfter?_literal hliteral, ih]

theorem depthAfter?_add {outer : Nat} (more : Nat) (h : depthAfter? depth cs = some outer) :
    depthAfter? (depth + more) cs = some (outer + more) := by
  induction cs generalizing depth with
  | nil =>
      obtain rfl : depth = outer := Option.some.inj h
      rfl
  | cons c cs ih =>
      rcases char_cases c with rfl | rfl | hliteral
      · rw [depthAfter?_open] at h ⊢
        rw [Nat.add_right_comm]
        exact ih h
      · cases depth with
        | zero => simp [depthAfter?] at h
        | succ depth =>
            rw [depthAfter?_close] at h
            rw [Nat.add_right_comm, depthAfter?_close]
            exact ih h
      · rw [depthAfter?_literal hliteral] at h ⊢
        exact ih h

mutual

theorem Sequence.depthAfter?_text (depth : Nat) :
    ∀ {isInside : Bool} (s : Sequence isInside), depthAfter? depth s.text = some depth
  | _, .nil => rfl
  | _, .literal c h rest => by
      rw [Sequence.text, depthAfter?_literal h]
      exact rest.depthAfter?_text depth
  | _, .group alternatives rest => by
      rw [Sequence.text, depthAfter?_open, depthAfter?_append,
        alternatives.depthAfter?_text (depth + 1), Option.bind_some, depthAfter?_close]
      exact rest.depthAfter?_text depth

theorem Alternatives.depthAfter?_text (depth : Nat) :
    ∀ alternatives : Alternatives, depthAfter? depth alternatives.text = some depth
  | .last s => s.depthAfter?_text depth
  | .cons s others => by
      rw [Alternatives.text, depthAfter?_append, s.depthAfter?_text depth, Option.bind_some,
        depthAfter?_literal isLiteral_comma]
      exact others.depthAfter?_text depth

end

/-- Puts a character in front of the first alternative. -/
def Alternatives.consLiteral (c : Char) (h : IsLiteral true c) : Alternatives → Alternatives
  | .last s => .last (.literal c h s)
  | .cons s others => .cons (.literal c h s) others

/-- Puts a group in front of the first alternative. -/
def Alternatives.consGroup (inner : Alternatives) : Alternatives → Alternatives
  | .last s => .last (.group inner s)
  | .cons s others => .cons (.group inner s) others

theorem Alternatives.text_consLiteral (h : IsLiteral true c) (alternatives : Alternatives) :
    (alternatives.consLiteral c h).text = c :: alternatives.text := by
  cases alternatives <;> rfl

theorem Alternatives.text_consGroup (inner alternatives : Alternatives) :
    (consGroup inner alternatives).text = '\x7b' :: (inner.text ++ '\x7d' :: alternatives.text) := by
  cases alternatives <;> simp [consGroup, Alternatives.text, Sequence.text]

/-- Up to the brace that closes it, the inside of a group is made of alternatives. -/
theorem exists_alternatives {depth : Nat} {cs : List Char} (h : depthAfter? (depth + 1) cs = some 0) :
    ∃ (alternatives : Alternatives) (rest : List Char),
      cs = alternatives.text ++ '\x7d' :: rest ∧ depthAfter? depth rest = some 0 := by
  induction hlength : cs.length using Nat.strongRecOn generalizing depth cs with
  | _ length ih =>
  subst hlength
  cases cs with
  | nil => simp [depthAfter?] at h
  | cons c tail =>
      rcases char_cases c with rfl | rfl | hliteral
      · rw [depthAfter?_open] at h
        obtain ⟨inner, behind, rfl, hbehind⟩ := ih _ (by simp) h rfl
        obtain ⟨alternatives, rest, rfl, hrest⟩ := ih _ (by simp; omega) hbehind rfl
        refine ⟨.consGroup inner alternatives, rest, ?_, hrest⟩
        simp [Alternatives.text_consGroup]
      · rw [depthAfter?_close] at h
        exact ⟨.last .nil, tail, rfl, h⟩
      · rw [depthAfter?_literal hliteral] at h
        obtain ⟨alternatives, rest, rfl, hrest⟩ := ih _ (by simp) h rfl
        by_cases hcomma : c = ','
        · exact ⟨.cons .nil alternatives, rest, hcomma ▸ rfl, hrest⟩
        · have hinside : IsLiteral true c := ⟨hliteral.1, hliteral.2.1, fun _ => hcomma⟩
          refine ⟨.consLiteral c hinside alternatives, rest, ?_, hrest⟩
          rw [Alternatives.text_consLiteral, List.cons_append]

theorem exists_sequence {cs : List Char} (h : IsBalanced cs) : ∃ s : Sequence false, s.text = cs := by
  induction hlength : cs.length using Nat.strongRecOn generalizing cs with
  | _ length ih =>
  subst hlength
  rw [IsBalanced] at h
  cases cs with
  | nil => exact ⟨.nil, rfl⟩
  | cons c tail =>
      rcases char_cases c with rfl | rfl | hliteral
      · rw [depthAfter?_open] at h
        obtain ⟨alternatives, rest, rfl, hrest⟩ := exists_alternatives h
        obtain ⟨s, rfl⟩ := ih _ (by simp; omega) hrest rfl
        exact ⟨.group alternatives s, rfl⟩
      · simp [depthAfter?] at h
      · rw [depthAfter?_literal hliteral] at h
        obtain ⟨s, rfl⟩ := ih _ (by simp) h rfl
        exact ⟨.literal c hliteral s, rfl⟩

theorem isBalanced_iff : IsBalanced cs ↔ ∃ s : Sequence false, s.text = cs := by
  constructor
  · exact exists_sequence
  · rintro ⟨s, rfl⟩
    exact s.depthAfter?_text 0

end Localization.Brace
