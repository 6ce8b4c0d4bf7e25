import Localization.Proofs.Edit.Apart

/-!
Edits that are made one at a time, or that were collected in another order. A list of edits can be applied
exactly if each of them fits the text and no two of them overlap; the outcome is that of splicing the edits into
the text one by one, from the last to the first in their order. It depends on their stable order only, and a list
has one such order. Main statements: `applyAll_splices`, `applyAll_of_reordered`.
-/

/-! ## One at a time -/

namespace Localization.Edit

open Text (byteLength splitAtByte IsBoundary)

variable {source output : List Char} {edits : List Edit}

/-- Replaces the bytes of one edit in a text. -/
def splice? (e : Edit) (text : List Char) : Option (List Char) := do
  let (front, _) ← splitAtByte text e.start
  let (_, back) ← splitAtByte text e.stop
  some (front ++ e.text.toList ++ back)

/-- Splices edits into a text, the last one first. -/
def spliceAll : List Edit → List Char → Option (List Char)
  | [], text => some text
  | e :: rest, text => (spliceAll rest text).bind (splice? e)

/-- A list holds the same edits by start and end, and those with equal ranges as they were given. -/
structure IsStableOrder (edits ordered : List Edit) : Prop where
  perm : ordered.Perm edits
  sorted : ordered.Pairwise fun a b => a.start < b.start ∨ a.start = b.start ∧ a.stop ≤ b.stop
  stable : ∀ span : Source.Span,
    ordered.filter (fun e => e.range = span) = edits.filter fun e => e.range = span

theorem before_iff {a b : Edit} :
    a.before b = true ↔ a.start < b.start ∨ a.start = b.start ∧ a.stop ≤ b.stop := by
  simp only [before, Bool.or_eq_true, Bool.and_eq_true, decide_eq_true_eq, beq_iff_eq]

theorem perm_insertOrdered (e : Edit) (edits : List Edit) :
    (insertOrdered e edits).Perm (e :: edits) := by
  induction edits with
  | nil => exact .refl _
  | cons f rest ih =>
      rw [insertOrdered]
      split
      · exact .refl _
      · exact (ih.cons f).trans (.swap e f rest)

theorem perm_sort (edits : List Edit) : (sort edits).Perm edits := by
  induction edits with
  | nil => exact .refl _
  | cons e rest ih => exact (perm_insertOrdered e _).trans (ih.cons e)

theorem sorted_insertOrdered {e : Edit} (h : edits.Pairwise fun a b => a.before b = true) :
    (insertOrdered e edits).Pairwise fun a b => a.before b = true := by
  induction edits with
  | nil => exact List.pairwise_singleton _ _
  | cons f rest ih =>
      obtain ⟨hfirst, hrest⟩ := List.pairwise_cons.mp h
      rw [insertOrdered]
      split
      · next hbefore =>
          refine List.pairwise_cons.mpr ⟨?_, h⟩
          intro g hg
          rcases List.mem_cons.mp hg with rfl | hg
          · exact hbefore
          · have hlater := before_iff.mp (hfirst g hg)
            have hnext := before_iff.mp hbefore
            exact before_iff.mpr (by omega)
      · next hbefore =>
          refine List.pairwise_cons.mpr ⟨?_, ih hrest⟩
          intro g hg
          rcases mem_insertOrdered.mp hg with rfl | hg
          · rw [before_iff] at hbefore ⊢
            omega
          · exact hfirst g hg

theorem sorted_sort (edits : List Edit) :
    (sort edits).Pairwise fun a b => a.before b = true := by
  induction edits with
  | nil => exact .nil
  | cons e rest ih => exact sorted_insertOrdered ih

/-- An edit is put in front of the edits that have its range. -/
theorem filter_insertOrdered (span : Source.Span) (e : Edit) (edits : List Edit) :
    (insertOrdered e edits).filter (fun f => f.range = span) =
      (e :: edits).filter fun f => f.range = span := by
  induction edits with
  | nil => rfl
  | cons f rest ih =>
      rw [insertOrdered]
      split
      · rfl
      · next hbefore =>
          have hother : ¬ (e.range = span ∧ f.range = span) := by
            rintro ⟨rfl, hf⟩
            simp only [range, Source.Span.mk.injEq] at hf
            exact hbefore (before_iff.mpr (by omega))
          simp only [List.filter_cons, decide_eq_true_eq] at ih ⊢
          rw [ih]
          by_cases he : e.range = span
          · have hf : f.range ≠ span := fun hf => hother ⟨he, hf⟩
            simp only [if_neg hf]
          · simp only [if_neg he]

theorem isStableOrder_sort (edits : List Edit) : IsStableOrder edits (sort edits) where
  perm := perm_sort edits
  sorted := (sorted_sort edits).imp before_iff.mp
  stable := by
    intro span
    induction edits with
    | nil => rfl
    | cons e rest ih =>
        rw [sort, List.foldr_cons, filter_insertOrdered, List.filter_cons, List.filter_cons]
        rw [sort] at ih
        rw [ih]

/-- An insertion at the start of a replaced range stands in front of the replacement. -/
theorem IsStableOrder.pair_sublist {ordered : List Edit} (h : IsStableOrder edits ordered)
    {insertion replacement : Edit} (hinsertion : insertion ∈ edits) (hreplacement : replacement ∈ edits)
    (hempty : insertion.stop = insertion.start) (hstart : insertion.start = replacement.start)
    (hstop : replacement.start < replacement.stop) : [insertion, replacement].Sublist ordered := by
  obtain ⟨front, back, rfl⟩ := List.append_of_mem (h.perm.mem_iff.mpr hinsertion)
  have hmem : replacement ∈ front ++ insertion :: back := h.perm.mem_iff.mpr hreplacement
  rw [List.mem_append, List.mem_cons] at hmem
  rcases hmem with hfront | rfl | hback
  · have horder := (List.pairwise_append.mp h.sorted).2.2 _ hfront _ List.mem_cons_self
    omega
  · omega
  · have hpair : [insertion, replacement].Sublist (insertion :: back) :=
      (List.singleton_sublist.mpr hback).cons_cons insertion
    exact hpair.trans (List.sublist_append_right front _)

theorem splice?_append {kept replaced behind : List Char} {e : Edit}
    (hstart : e.start = byteLength kept) (hstop : e.stop = e.start + byteLength replaced) :
    splice? e (kept ++ (replaced ++ behind)) = some (kept ++ e.text.toList ++ behind) := by
  have hback : splitAtByte (kept ++ (replaced ++ behind)) e.stop =
      some (kept ++ replaced, behind) := by
    rw [hstop, hstart, ← Text.byteLength_append, ← List.append_assoc]
    exact Text.splitAtByte_append _ _
  rw [splice?, hback, hstart, Text.splitAtByte_append]
  rfl

/-- The pieces of a text are what splicing the last edit first makes of it: the text in front of an
edit is still as it was when its turn comes. -/
theorem spliceAll_pieces {pieces : List Piece} (front tail : List Char)
    (h : Piece.Placed (byteLength front) pieces) :
    spliceAll (pieces.map Piece.edit) (front ++ (pieces.flatMap Piece.before ++ tail)) =
      some (front ++ (pieces.flatMap Piece.after ++ tail)) := by
  induction pieces generalizing front with
  | nil => rfl
  | cons p rest ih =>
      obtain ⟨hstart, hstop, hrest⟩ := h
      have hfront : byteLength (front ++ p.before) = p.edit.stop := by
        simp only [Piece.before, Text.byteLength_append]
        omega
      have hlater := ih (front ++ p.before) (hfront ▸ hrest)
      have hkept : p.edit.start = byteLength (front ++ p.kept) := by
        rw [Text.byteLength_append, hstart]
      have hsplice := @splice?_append _ _ (rest.flatMap Piece.after ++ tail) _ hkept hstop
      simp only [List.map_cons, List.flatMap_cons, Piece.before, Piece.after,
        List.append_assoc] at hlater hsplice ⊢
      rw [spliceAll, hlater, Option.bind_some, hsplice]

/-- Edits at their bytes fit the text, and each of them ends before the later ones start. -/
theorem fits_of_placed {pieces : List Piece} (front tail : List Char)
    (h : Piece.Placed (byteLength front) pieces) :
    (∀ e ∈ pieces.map Piece.edit, byteLength front ≤ e.start ∧
        e.Fits (front ++ (pieces.flatMap Piece.before ++ tail))) ∧
      (pieces.map Piece.edit).Pairwise fun a b => a.stop ≤ b.start := by
  induction pieces generalizing front with
  | nil => exact ⟨nofun, .nil⟩
  | cons p rest ih =>
      obtain ⟨hstart, hstop, hrest⟩ := h
      have hfront : byteLength (front ++ p.before) = p.edit.stop := by
        simp only [Piece.before, Text.byteLength_append]
        omega
      obtain ⟨hlater, hpairwise⟩ := ih (front ++ p.before) (hfront ▸ hrest)
      rw [hfront, List.append_assoc] at hlater
      rw [List.flatMap_cons, List.append_assoc, List.map_cons]
      refine ⟨List.forall_mem_cons.mpr ⟨⟨by omega, by omega, ?_, ?_⟩, ?_⟩,
        List.pairwise_cons.mpr ⟨fun e he => (hlater e he).1, hpairwise⟩⟩
      · refine Text.isBoundary_iff.mpr ⟨front ++ p.kept,
          p.replaced ++ (rest.flatMap Piece.before ++ tail), ?_, ?_⟩
        · simp only [Piece.before, List.append_assoc]
        · rw [Text.byteLength_append, hstart]
      · refine Text.isBoundary_iff.mpr ⟨front ++ p.before, rest.flatMap Piece.before ++ tail, ?_, hfront⟩
        rw [List.append_assoc]
      · intro e he
        have hstop' := (hlater e he).1
        exact ⟨by omega, (hlater e he).2⟩

theorem Fits.stop_le {e : Edit} (h : e.Fits source) : e.stop ≤ byteLength source := by
  obtain ⟨before, after, rfl, hbefore⟩ := Text.isBoundary_iff.mp h.stop
  rw [Text.byteLength_append]
  omega

/-- Edits that can be applied fit the text, and no two of them overlap. -/
theorem fits_of_applyAll (h : applyAll source edits = .ok output) :
    (∀ e ∈ edits, e.Fits source) ∧ edits.Pairwise fun a b => a.range.Apart b.range := by
  obtain ⟨pieces, tail, hedits, hplaced, rfl, -⟩ := applyAll_eq_ok_iff.mp h
  obtain ⟨hfits, hpairwise⟩ := fits_of_placed [] tail hplaced
  rw [hedits] at hfits hpairwise
  refine ⟨fun e he => (hfits e (mem_sort.mpr he)).2, ?_⟩
  have hapart : (sort edits).Pairwise fun a b => a.range.Apart b.range := hpairwise.imp Or.inl
  exact (perm_sort edits).pairwise hapart Or.symm

/-- Edits can be applied exactly if each of them cuts the text between characters and no two of them
overlap. The output is that of splicing them into the text one at a time, the last one in their order
first: it consists of what stands outside the edits and of their texts. -/
theorem applyAll_splices (source : List Char) (edits : List Edit) :
    ((∃ output, applyAll source edits = .ok output) ↔
        (∀ e ∈ edits, e.start ≤ e.stop ∧ e.stop ≤ byteLength source ∧
          IsBoundary source e.start ∧ IsBoundary source e.stop) ∧
        edits.Pairwise fun a b => a.stop ≤ b.start ∨ b.stop ≤ a.start) ∧
      ∀ output, applyAll source edits = .ok output →
        ∃ ordered, IsStableOrder edits ordered ∧ spliceAll ordered source = some output ∧
          (∃ pieces tail, pieces.map Piece.edit = ordered ∧ Piece.Placed 0 pieces ∧
            source = pieces.flatMap (fun p => p.kept ++ p.replaced) ++ tail ∧
            output = pieces.flatMap (fun p => p.kept ++ p.edit.text.toList) ++ tail) ∧
          (∀ place, ordered.filter (fun e => e.range = ⟨place, place⟩) =
            edits.filter fun e => e.range = ⟨place, place⟩) ∧
          ∀ insertion ∈ edits, ∀ replacement ∈ edits, insertion.stop = insertion.start →
            insertion.start = replacement.start → replacement.start < replacement.stop →
            [insertion, replacement].Sublist ordered := by
  refine ⟨⟨?_, ?_⟩, ?_⟩
  · rintro ⟨output, h⟩
    obtain ⟨hfits, hapart⟩ := fits_of_applyAll h
    refine ⟨fun e he => ?_, hapart⟩
    have hfit := hfits e he
    exact ⟨hfit.ordered, hfit.stop_le, hfit.start, hfit.stop⟩
  · rintro ⟨hfits, hapart⟩
    refine exists_output_of_apart (fun e he => ?_) hapart
    obtain ⟨hordered, -, hstart, hstop⟩ := hfits e he
    exact ⟨hordered, hstart, hstop⟩
  · intro output h
    have horder := isStableOrder_sort edits
    obtain ⟨pieces, tail, hedits, hplaced, hsource, houtput⟩ := applyAll_eq_ok_iff.mp h
    refine ⟨sort edits, horder, ?_, ⟨pieces, tail, hedits, hplaced, hsource, houtput⟩,
      fun place => horder.stable ⟨place, place⟩, ?_⟩
    · rw [← hedits, hsource, houtput]
      exact spliceAll_pieces [] tail hplaced
    · intro insertion hinsertion replacement hreplacement
      exact horder.pair_sublist hinsertion hreplacement

/-- Two insertions at the start of a replaced range, in a text of longer characters. -/
theorem applyAll_splices_touching :
    ∃ ordered, IsStableOrder [⟨3, 6, "x"⟩, insert 3 "b", insert 3 "c"] ordered ∧
      spliceAll ordered "가나다".toList = some "가bcx다".toList ∧
      [insert 3 "b", ⟨3, 6, "x"⟩].Sublist ordered := by
  have houtput : applyAll "가나다".toList [⟨3, 6, "x"⟩, insert 3 "b", insert 3 "c"] =
      .ok "가bcx다".toList := rfl
  obtain ⟨ordered, horder, hsplice, -, -, hpair⟩ := (applyAll_splices _ _).2 _ houtput
  exact ⟨ordered, horder, hsplice, hpair _ (by decide) _ (by decide) rfl rfl (by decide)⟩

end Localization.Edit

/-! ## In another order -/

namespace Localization.Edit

open Text (byteLength)

variable {collected reordered ordered other : List Edit}

/-- The same edits in another order, where edits with equal ranges stand as they stood. -/
structure IsReordering (collected reordered : List Edit) : Prop where
  perm : reordered.Perm collected
  ties : ∀ span : Source.Span,
    reordered.filter (fun e => e.range = span) = collected.filter fun e => e.range = span

theorem range_eq_of_before {a b : Edit} (hab : a.before b = true) (hba : b.before a = true) :
    a.range = b.range := by
  rw [before_iff] at hab hba
  simp only [range, Source.Span.mk.injEq]
  omega

theorem before_of_mem {a : Edit} (h : (a :: ordered).Pairwise fun a b => a.before b = true) {b : Edit}
    (hb : b ∈ a :: ordered) : a.before b = true := by
  rcases List.mem_cons.mp hb with rfl | hb
  · rw [before_iff]
    omega
  · exact List.rel_of_pairwise_cons h hb

/-- Edits in order are determined by the edits of each range. -/
theorem eq_of_ordered (hordered : ordered.Pairwise fun a b => a.before b = true)
    (hother : other.Pairwise fun a b => a.before b = true) (hperm : ordered.Perm other)
    (hties : ∀ span : Source.Span,
      ordered.filter (fun e => e.range = span) = other.filter fun e => e.range = span) :
    ordered = other := by
  induction ordered generalizing other with
  | nil => exact hperm.nil_eq
  | cons a rest ih =>
      cases other with
      | nil => exact absurd hperm.symm.nil_eq nofun
      | cons b more =>
          -- Each of the two first edits stands in the other list, so neither comes after the other.
          have hrange : a.range = b.range := by
            apply range_eq_of_before
            · exact before_of_mem hordered (hperm.mem_iff.mpr List.mem_cons_self)
            · exact before_of_mem hother (hperm.mem_iff.mp List.mem_cons_self)
          have hab : a = b := by
            have hfirst := hties a.range
            rw [List.filter_cons_of_pos (by simp), List.filter_cons_of_pos (by simp [hrange])] at hfirst
            exact (List.cons.inj hfirst).1
          subst hab
          congr 1
          apply ih hordered.of_cons hother.of_cons hperm.cons_inv
          intro span
          have hspan := hties span
          simp only [List.filter_cons] at hspan
          split at hspan
          · exact (List.cons.inj hspan).2
          · exact hspan

theorem IsStableOrder.before (h : IsStableOrder collected ordered) :
    ordered.Pairwise fun a b => a.before b = true :=
  h.sorted.imp before_iff.mpr

/-- Sorting is the only way to put edits into a stable order. -/
theorem IsStableOrder.eq_sort (h : IsStableOrder collected ordered) (hreordered :
    IsReordering collected reordered) : sort reordered = ordered := by
  have hsort := isStableOrder_sort reordered
  apply eq_of_ordered hsort.before h.before
  · exact hsort.perm.trans (hreordered.perm.trans h.perm.symm)
  · intro span
    rw [hsort.stable, hreordered.ties, h.stable]

/-- Edits have one outcome, a text or an error, in whichever order they were collected, as long as those
with equal ranges keep their order: it is that of the edits taken from left to right. -/
theorem applyAll_of_reordered (source : List Char) (h : IsReordering collected reordered) :
    applyAll source reordered = applyAll source collected ∧
      ∀ ordered, IsStableOrder collected ordered →
        applyAll source reordered = applyFrom (byteLength source) 0 source ordered := by
  constructor
  · rw [applyAll, applyAll, (isStableOrder_sort collected).eq_sort h]
  · intro ordered hordered
    rw [applyAll, hordered.eq_sort h]

/-- The body of an arrow function, its text and the hook around it: the hook was found after the text. -/
theorem applyAll_of_reordered_arrowBody :
    IsReordering [⟨5, 10, "t(\"가\")"⟩, insert 5 "\x7b return ", insert 10 "; \x7d"]
        [insert 5 "\x7b return ", insert 10 "; \x7d", ⟨5, 10, "t(\"가\")"⟩] ∧
      applyAll "x => \"가\"".toList
        [insert 5 "\x7b return ", insert 10 "; \x7d", ⟨5, 10, "t(\"가\")"⟩] =
          .ok "x => \x7b return t(\"가\"); \x7d".toList := by
  have h : IsReordering [⟨5, 10, "t(\"가\")"⟩, insert 5 "\x7b return ", insert 10 "; \x7d"]
      [insert 5 "\x7b return ", insert 10 "; \x7d", ⟨5, 10, "t(\"가\")"⟩] := by
    constructor
    · decide
    · intro span
      by_cases htext : (⟨5, 10⟩ : Source.Span) = span
      · subst htext
        rfl
      · have hrange (text : String) : (Edit.mk 5 10 text).range ≠ span := htext
        simp [List.filter_cons, hrange]
  refine ⟨h, ?_⟩
  rw [(applyAll_of_reordered _ h).1]
  rfl

end Localization.Edit
