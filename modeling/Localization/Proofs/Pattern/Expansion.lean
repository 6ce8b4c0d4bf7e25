import Localization.Proofs.Pattern.Sequence
import Mathlib.Data.List.Basic

/-!
What the expansion of brace groups gives. Main statement: `expand_denotes`.
-/

namespace Localization.Brace

variable {isInside : Bool} {depth : Nat} {c : Char} {piece cs rest inside after : List Char}

section group

theorem groupFrom_open :
    groupFrom depth piece ('\x7b' :: rest) = groupFrom (depth + 1) ('\x7b' :: piece) rest := by
  simp [groupFrom]

theorem groupFrom_close :
    groupFrom (depth + 1) piece ('\x7d' :: rest) = groupFrom depth ('\x7d' :: piece) rest := by
  simp [groupFrom]

theorem groupFrom_literal (h : IsLiteral isInside c) (hdepth : depth = 0 → isInside = true) :
    groupFrom depth piece (c :: rest) = groupFrom depth (c :: piece) rest := by
  have hcomma : ¬(c = ',' ∧ depth = 0) := fun hboth => h.2.2 (hdepth hboth.2) hboth.1
  rw [groupFrom.eq_def]
  dsimp only
  rw [if_neg h.1, if_neg h.2.1, if_neg hcomma]

mutual

/-- A group is read past whole sequences. -/
theorem Sequence.groupFrom_text :
    ∀ {isInside : Bool} (s : Sequence isInside) (depth : Nat) (piece rest : List Char),
      (depth = 0 → isInside = true) →
        groupFrom depth piece (s.text ++ rest) = groupFrom depth (s.text.reverse ++ piece) rest
  | _, .nil, _, _, _, _ => rfl
  | _, .literal c h s, depth, piece, rest, hdepth => by
      rw [Sequence.text, List.cons_append, groupFrom_literal h hdepth,
        s.groupFrom_text depth _ rest hdepth, List.reverse_cons, List.append_assoc,
        List.singleton_append]
  | _, .group alternatives s, depth, piece, rest, hdepth => by
      rw [Sequence.text, List.cons_append, groupFrom_open, List.append_assoc, List.cons_append,
        alternatives.groupFrom_text depth _ _, groupFrom_close, s.groupFrom_text depth _ rest hdepth]
      simp

theorem Alternatives.groupFrom_text :
    ∀ (alternatives : Alternatives) (depth : Nat) (piece rest : List Char),
      groupFrom (depth + 1) piece (alternatives.text ++ rest) =
        groupFrom (depth + 1) (alternatives.text.reverse ++ piece) rest
  | .last s, depth, piece, rest => s.groupFrom_text (depth + 1) piece rest (by simp)
  | .cons s others, depth, piece, rest => by
      rw [Alternatives.text, List.append_assoc, List.cons_append,
        s.groupFrom_text (depth + 1) piece _ (by simp), groupFrom_literal isLiteral_comma (by simp),
        others.groupFrom_text depth _ rest]
      simp

end

/-- The alternatives as they are written. -/
def Alternatives.parts : Alternatives → List (List Char)
  | .last s => [s.text]
  | .cons s others => s.text :: others.parts

theorem group?_text (after : List Char) (alternatives : Alternatives) :
    group? (alternatives.text ++ '\x7d' :: after) = some (alternatives.parts, after) := by
  cases alternatives with
  | last s =>
      rw [group?, Alternatives.text, s.groupFrom_text 0 [] _ (fun _ => rfl)]
      simp [groupFrom, Alternatives.parts]
  | cons s others =>
      have hothers := group?_text after others
      rw [group?] at hothers
      rw [group?, Alternatives.text, List.append_assoc, s.groupFrom_text 0 [] _ (fun _ => rfl)]
      simp [groupFrom, Alternatives.parts, hothers]

theorem exists_groupFrom_of_literal {parts : List (List Char)} (hc : IsLiteral false c)
    (h : groupFrom depth piece (c :: rest) = some (parts, after)) :
    ∃ piece parts, groupFrom depth piece rest = some (parts, after) := by
  rw [groupFrom.eq_def] at h
  dsimp only at h
  rw [if_neg hc.1, if_neg hc.2.1] at h
  split at h
  · next hcomma =>
      obtain ⟨-, rfl⟩ := hcomma
      obtain ⟨⟨others, behind⟩, hothers, hsome⟩ := Option.bind_eq_some_iff.mp h
      obtain ⟨-, rfl⟩ := Prod.mk.inj (Option.some.inj hsome)
      exact ⟨[], others, hothers⟩
  · exact ⟨c :: piece, parts, h⟩

/-- A group ends with the brace that closes it. -/
theorem exists_closed_of_groupFrom {parts : List (List Char)}
    (h : groupFrom depth piece cs = some (parts, after)) :
    ∃ closed, cs = closed ++ after ∧ depthAfter? (depth + 1) closed = some 0 := by
  induction cs generalizing depth piece parts with
  | nil => simp [groupFrom] at h
  | cons c tail ih =>
      rcases char_cases c with rfl | rfl | hliteral
      · rw [groupFrom_open] at h
        obtain ⟨closed, rfl, hclosed⟩ := ih h
        exact ⟨'\x7b' :: closed, rfl, depthAfter?_open.trans hclosed⟩
      · cases depth with
        | zero =>
            obtain ⟨-, rfl⟩ : _ ∧ tail = after := by simpa [groupFrom] using h
            exact ⟨['\x7d'], rfl, rfl⟩
        | succ outer =>
            rw [groupFrom_close] at h
            obtain ⟨closed, rfl, hclosed⟩ := ih h
            exact ⟨'\x7d' :: closed, rfl, depthAfter?_close.trans hclosed⟩
      · obtain ⟨piece, parts, hrest⟩ := exists_groupFrom_of_literal hliteral h
        obtain ⟨closed, rfl, hclosed⟩ := ih hrest
        exact ⟨c :: closed, rfl, (depthAfter?_literal hliteral).trans hclosed⟩

/-- There is a group exactly where alternatives stand in front of a closing brace. -/
theorem group?_eq_some_iff {parts : List (List Char)} :
    group? inside = some (parts, after) ↔
      ∃ alternatives : Alternatives,
        inside = alternatives.text ++ '\x7d' :: after ∧ alternatives.parts = parts := by
  constructor
  · intro h
    obtain ⟨closed, rfl, hclosed⟩ := exists_closed_of_groupFrom h
    obtain ⟨alternatives, behind, rfl, -⟩ := exists_alternatives hclosed
    have hgroup := group?_text (behind ++ after) alternatives
    rw [List.append_assoc, List.cons_append, hgroup, Option.some.injEq, Prod.mk.injEq] at h
    obtain ⟨hparts, hafter⟩ := h
    obtain rfl : behind = [] := List.append_left_eq_self.mp hafter
    exact ⟨alternatives, by simp, hparts⟩
  · rintro ⟨alternatives, rfl, rfl⟩
    exact group?_text after alternatives

theorem count_le_of_mem_parts {part : List Char} :
    ∀ {alternatives : Alternatives}, part ∈ alternatives.parts →
      part.count c ≤ alternatives.text.count c
  | .last s, h => by
      have hpart : part = s.text := List.mem_singleton.mp h
      exact Nat.le_of_eq (congrArg (List.count c) hpart)
  | .cons s others, h => by
      rw [Alternatives.text, List.count_append]
      rcases List.mem_cons.mp h with rfl | hmem
      · exact Nat.le_add_right _ _
      · have hpart : part.count c ≤ others.text.count c := count_le_of_mem_parts hmem
        have hcons : others.text.count c ≤ (',' :: others.text).count c := List.count_le_count_cons
        omega

end group

section expand

/-- Patterns are taken apart from the left: each group is replaced by its alternatives, in each of which
there are fewer groups left. -/
theorem pattern_induction {P : List Char → Prop} (nil : P [])
    (literal : ∀ c cs, c ≠ '\x7b' → P cs → P (c :: cs))
    (unclosed : ∀ inside, group? inside = none → P ('\x7b' :: inside))
    (group : ∀ (alternatives : Alternatives) (after : List Char),
      (∀ part ∈ alternatives.parts, P (part ++ after)) →
        P ('\x7b' :: (alternatives.text ++ '\x7d' :: after)))
    (pattern : List Char) : P pattern := by
  induction hcount : pattern.count '\x7b' using Nat.strongRecOn generalizing pattern with
  | _ count ih =>
  induction pattern generalizing count with
  | nil => exact nil
  | cons c cs ihcs =>
      by_cases hopen : c = '\x7b'
      · subst hopen
        cases hgroup : group? cs with
        | none => exact unclosed cs hgroup
        | some found =>
            obtain ⟨alternatives, rfl, -⟩ := group?_eq_some_iff.mp hgroup
            apply group
            intro part hpart
            apply ih _ ?_ _ rfl
            have hle : part.count '\x7b' ≤ alternatives.text.count '\x7b' := count_le_of_mem_parts hpart
            rw [← hcount, List.count_cons_self, List.count_append, List.count_append,
              List.count_cons_of_ne (by decide)]
            omega
      · apply literal c cs hopen
        rw [List.count_cons_of_ne hopen] at hcount
        exact ihcs count ih hcount

theorem expandGroups_nil (groups : Nat) : expandGroups groups [] = [[]] := by
  cases groups <;> rfl

theorem expandGroups_literal (h : c ≠ '\x7b') (groups : Nat) (cs : List Char) :
    expandGroups groups (c :: cs) = (expandGroups groups cs).map (c :: ·) := by
  cases groups with
  | zero => rfl
  | succ groups =>
      have hc : (c != '\x7b') = true := bne_iff_ne.mpr h
      simp only [expandGroups, List.takeWhile_cons, List.dropWhile_cons, hc, if_true]
      cases cs.dropWhile (· != '\x7b') with
      | nil => rfl
      | cons brace inside =>
          cases hgroup : group? inside with
          | none => simp only [hgroup, List.map_singleton]
          | some found =>
              simp only [hgroup, List.map_flatMap, List.map_map]
              rfl

theorem expandGroups_unclosed (h : group? inside = none) (groups : Nat) :
    expandGroups groups ('\x7b' :: inside) = ['\x7b' :: inside] := by
  cases groups with
  | zero => rfl
  | succ groups => simp [expandGroups, h]

theorem expandGroups_group (groups : Nat) (alternatives : Alternatives) (after : List Char) :
    expandGroups (groups + 1) ('\x7b' :: (alternatives.text ++ '\x7d' :: after)) =
      alternatives.parts.flatMap fun part => expandGroups groups (part ++ after) := by
  simp [expandGroups, group?_text]

/-- As many groups as there are opening braces are enough. -/
theorem expandGroups_eq (pattern : List Char) {groups others : Nat}
    (hgroups : pattern.count '\x7b' ≤ groups) (hothers : pattern.count '\x7b' ≤ others) :
    expandGroups groups pattern = expandGroups others pattern := by
  induction pattern using pattern_induction generalizing groups others with
  | nil => rw [expandGroups_nil, expandGroups_nil]
  | literal c cs hc ih =>
      rw [List.count_cons_of_ne hc] at hgroups hothers
      rw [expandGroups_literal hc, expandGroups_literal hc, ih hgroups hothers]
  | unclosed inside h => rw [expandGroups_unclosed h, expandGroups_unclosed h]
  | group alternatives after ih =>
      rw [List.count_cons_self, List.count_append, List.count_cons_of_ne (by decide)] at hgroups hothers
      obtain ⟨groups, rfl⟩ := Nat.exists_eq_add_of_le' (Nat.le_of_add_left_le hgroups)
      obtain ⟨others, rfl⟩ := Nat.exists_eq_add_of_le' (Nat.le_of_add_left_le hothers)
      rw [expandGroups_group, expandGroups_group]
      apply List.flatMap_congr
      intro part hpart
      have hle : part.count '\x7b' ≤ alternatives.text.count '\x7b' := count_le_of_mem_parts hpart
      apply ih part hpart
      · rw [List.count_append]
        omega
      · rw [List.count_append]
        omega

theorem expand_nil : expand [] = [[]] :=
  rfl

theorem expand_literal (h : c ≠ '\x7b') (cs : List Char) :
    expand (c :: cs) = (expand cs).map (c :: ·) := by
  rw [expand, List.count_cons_of_ne h, expandGroups_literal h, expand]

theorem expand_unclosed (h : group? inside = none) :
    expand ('\x7b' :: inside) = ['\x7b' :: inside] :=
  expandGroups_unclosed h _

theorem expand_group (alternatives : Alternatives) (after : List Char) :
    expand ('\x7b' :: (alternatives.text ++ '\x7d' :: after)) =
      alternatives.parts.flatMap fun part => expand (part ++ after) := by
  rw [expand, List.count_cons_self, expandGroups_group]
  apply List.flatMap_congr
  intro part hpart
  have hle : part.count '\x7b' ≤ alternatives.text.count '\x7b' := count_le_of_mem_parts hpart
  refine expandGroups_eq _ ?_ (Nat.le_refl _)
  rw [List.count_append, List.count_append, List.count_cons_of_ne (by decide)]
  omega

theorem expand_append {front : List Char} (h : '\x7b' ∉ front) (cs : List Char) :
    expand (front ++ cs) = (expand cs).map (front ++ ·) := by
  induction front with
  | nil => simp
  | cons c front ih =>
      rw [List.mem_cons, not_or] at h
      rw [List.cons_append, expand_literal (Ne.symm h.1), ih h.2, List.map_map]
      rfl

/-- What a pattern expands to has no group any more. -/
theorem expand_of_mem_expand {pattern word : List Char} (h : word ∈ expand pattern) :
    expand word = [word] := by
  induction pattern using pattern_induction generalizing word with
  | nil =>
      obtain rfl := List.mem_singleton.mp h
      rfl
  | literal c cs hc ih =>
      rw [expand_literal hc] at h
      obtain ⟨tail, htail, rfl⟩ := List.mem_map.mp h
      rw [expand_literal hc, ih htail, List.map_singleton]
  | unclosed inside hnone =>
      rw [expand_unclosed hnone] at h
      obtain rfl := List.mem_singleton.mp h
      exact expand_unclosed hnone
  | group alternatives after ih =>
      rw [expand_group] at h
      obtain ⟨part, hpart, hword⟩ := List.mem_flatMap.mp h
      exact ih part hpart hword

mutual

/-- A sequence stands for its words, whatever follows it. -/
theorem Sequence.expand_text_append :
    ∀ {isInside : Bool} (s : Sequence isInside) (after : List Char),
      expand (s.text ++ after) = s.words.flatMap fun w => (expand after).map (w ++ ·)
  | _, .nil, after => by simp [Sequence.text, Sequence.words]
  | _, .literal c h s, after => by
      rw [Sequence.text, List.cons_append, expand_literal h.1, s.expand_text_append after,
        Sequence.words, List.flatMap_map, List.map_flatMap]
      simp only [List.map_map, Function.comp_def, List.cons_append]
  | _, .group alternatives s, after => by
      rw [Sequence.text, List.cons_append, List.append_assoc, List.cons_append, expand_group,
        alternatives.flatMap_expand_parts (s.text ++ after), s.expand_text_append after,
        Sequence.words, List.flatMap_assoc]
      simp only [List.map_flatMap, List.flatMap_map, List.map_map, Function.comp_def,
        List.append_assoc]

theorem Alternatives.flatMap_expand_parts :
    ∀ (alternatives : Alternatives) (after : List Char),
      (alternatives.parts.flatMap fun part => expand (part ++ after)) =
        alternatives.words.flatMap fun w => (expand after).map (w ++ ·)
  | .last s, after => by
      rw [Alternatives.parts, List.flatMap_singleton, s.expand_text_append after, Alternatives.words]
  | .cons s others, after => by
      rw [Alternatives.parts, List.flatMap_cons, s.expand_text_append after,
        others.flatMap_expand_parts after, Alternatives.words, List.flatMap_append]

end

theorem expand_text (s : Sequence isInside) : expand s.text = s.words := by
  have h := s.expand_text_append []
  simpa [expand_nil] using h

theorem isSome_group?_iff :
    (group? inside).isSome ↔ ∃ inner after, inside = inner ++ '\x7d' :: after ∧ IsBalanced inner := by
  constructor
  · intro h
    obtain ⟨⟨parts, after⟩, hgroup⟩ := Option.isSome_iff_exists.mp h
    obtain ⟨alternatives, rfl, -⟩ := group?_eq_some_iff.mp hgroup
    exact ⟨alternatives.text, after, rfl, alternatives.depthAfter?_text 0⟩
  · rintro ⟨inner, after, rfl, hinner⟩
    have hclosed : depthAfter? 1 (inner ++ ['\x7d']) = some 0 := by
      rw [depthAfter?_append, depthAfter?_add 1 hinner]
      rfl
    obtain ⟨alternatives, rest, htext, -⟩ := exists_alternatives hclosed
    have hinside : inner ++ '\x7d' :: after = alternatives.text ++ '\x7d' :: (rest ++ after) := by
      rw [← List.cons_append, ← List.append_assoc, ← htext]
      simp
    rw [hinside, group?_text]
    rfl

theorem count_part_lt {alternatives : Alternatives} {part : List Char}
    (h : part ∈ alternatives.parts) (front after : List Char) :
    (front ++ part ++ after).count '\x7b' <
      (front ++ '\x7b' :: (alternatives.text ++ '\x7d' :: after)).count '\x7b' := by
  have hle : part.count '\x7b' ≤ alternatives.text.count '\x7b' := count_le_of_mem_parts h
  rw [List.append_assoc, List.count_append, List.count_append, List.count_append,
    List.count_cons_self, List.count_append, List.count_cons_of_ne (by decide)]
  omega

/-- A balanced pattern is a sequence of characters and groups and expands to the words of that sequence.
Every pattern expands to words without groups, and it stands for itself if its first brace is not closed.
Else its first group is replaced by each alternative in turn, and fewer groups are left. -/
theorem expand_denotes (pattern : List Char) :
    (IsBalanced pattern → ∃ s : Sequence false, s.text = pattern ∧ expand pattern = s.words) ∧
      (∀ s : Sequence false, s.text = pattern → expand pattern = s.words) ∧
      (∀ word ∈ expand pattern, expand word = [word]) ∧
      ('\x7b' ∉ pattern → expand pattern = [pattern]) ∧
      ∀ front inside, pattern = front ++ '\x7b' :: inside → '\x7b' ∉ front →
        ((¬∃ inner after, inside = inner ++ '\x7d' :: after ∧ IsBalanced inner) →
          expand pattern = [pattern]) ∧
        ∀ (alternatives : Alternatives) (after : List Char),
          inside = alternatives.text ++ '\x7d' :: after →
            expand pattern =
                alternatives.parts.flatMap (fun part => expand (front ++ part ++ after)) ∧
              ∀ part ∈ alternatives.parts,
                (front ++ part ++ after).count '\x7b' < pattern.count '\x7b' := by
  refine ⟨?_, ?_, fun word => expand_of_mem_expand, ?_, ?_⟩
  · intro h
    obtain ⟨s, rfl⟩ := exists_sequence h
    exact ⟨s, rfl, expand_text s⟩
  · rintro s rfl
    exact expand_text s
  · intro h
    simpa [expand_nil] using expand_append h []
  · rintro front inside rfl hfront
    constructor
    · intro h
      have hnone : group? inside = none :=
        Option.not_isSome_iff_eq_none.mp fun hsome => h (isSome_group?_iff.mp hsome)
      rw [expand_append hfront, expand_unclosed hnone, List.map_singleton]
    · rintro alternatives after rfl
      refine ⟨?_, fun part hpart => count_part_lt hpart front after⟩
      rw [expand_append hfront, expand_group, List.map_flatMap]
      simp only [List.append_assoc, expand_append hfront]

/-- Nested groups with an empty alternative, behind a comma that stands for itself. -/
theorem expand_denotes_nested :
    IsBalanced "x,\x7ba,b\x7b1,\x7d\x7d".toList ∧
      ∃ s : Sequence false, s.text = "x,\x7ba,b\x7b1,\x7d\x7d".toList ∧
        s.words = ["x,a", "x,b1", "x,b"].map String.toList := by
  have hbalanced : IsBalanced "x,\x7ba,b\x7b1,\x7d\x7d".toList := by decide
  obtain ⟨hdenotes, -⟩ := expand_denotes "x,\x7ba,b\x7b1,\x7d\x7d".toList
  obtain ⟨s, htext, hwords⟩ := hdenotes hbalanced
  exact ⟨hbalanced, s, htext, hwords.symm.trans (by decide)⟩

example : expand "x,\x7ba,\x7d\x7bb,c\x7bd,e\x7d\x7d".toList =
    ["x,ab", "x,acd", "x,ace", "x,b", "x,cd", "x,ce"].map String.toList := by
  decide

end expand

end Localization.Brace
