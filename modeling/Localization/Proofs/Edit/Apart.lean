import Localization.Proofs.Edit.Piece
import Localization.Proofs.Source.Extent
import Localization.Proofs.Text.Boundary

/-!
When edits can be applied: it is enough that they fit the text and that no two of them overlap. Main
statement: `exists_output_of_apart`.
-/

namespace Localization.Edit

open Text (byteLength)

/-- The bytes that an edit replaces. -/
def range (e : Edit) : Source.Span :=
  ⟨e.start, e.stop⟩

/-- An edit whose bytes are characters of a text. -/
structure Fits (source : List Char) (e : Edit) : Prop where
  ordered : e.start ≤ e.stop
  start : Text.IsBoundary source e.start
  stop : Text.IsBoundary source e.stop

theorem fits_insert {source : List Char} {place : Nat} (h : Text.IsBoundary source place)
    (text : String) : (insert place text).Fits source :=
  ⟨Nat.le_refl place, h, h⟩

/-- Of two edits that stand apart, the one that sorts first ends before the other one starts. -/
theorem stop_le_start_of_before {a b : Edit} (hapart : a.range.Apart b.range)
    (hbefore : a.before b = true) (hordered : b.start ≤ b.stop) : a.stop ≤ b.start := by
  simp only [before, Bool.or_eq_true, Bool.and_eq_true, decide_eq_true_eq, beq_iff_eq] at hbefore
  rcases hapart with h | h
  · exact h
  · simp only [range] at h
    omega

theorem stop_le_start_of_not_before {a b : Edit} (hapart : a.range.Apart b.range)
    (hbefore : a.before b = false) (hordered : a.start ≤ a.stop) : b.stop ≤ a.start := by
  simp only [before, Bool.or_eq_false_iff, Bool.and_eq_false_iff, decide_eq_false_iff_not,
    beq_eq_false_iff_ne] at hbefore
  rcases hapart with h | h
  · simp only [range] at h
    omega
  · exact h

/-- Putting an edit among edits that follow each other keeps them so. -/
theorem pairwise_insertOrdered {e : Edit} {edits : List Edit}
    (hordered : ∀ f ∈ e :: edits, f.start ≤ f.stop)
    (hapart : ∀ f ∈ edits, e.range.Apart f.range)
    (hedits : edits.Pairwise fun a b => a.stop ≤ b.start) :
    (insertOrdered e edits).Pairwise fun a b => a.stop ≤ b.start := by
  induction edits with
  | nil => exact List.pairwise_singleton _ _
  | cons f rest ih =>
      obtain ⟨hfirst, hrest⟩ := List.pairwise_cons.mp hedits
      obtain ⟨he, hf, hmore⟩ : e.start ≤ e.stop ∧ f.start ≤ f.stop ∧ ∀ g ∈ rest, g.start ≤ g.stop := by
        simpa only [List.forall_mem_cons] using hordered
      rw [insertOrdered]
      split
      · next hbefore =>
          have hstop := stop_le_start_of_before (hapart f List.mem_cons_self) hbefore hf
          refine List.pairwise_cons.mpr ⟨?_, hedits⟩
          rintro g hg
          rcases List.mem_cons.mp hg with rfl | hg
          · exact hstop
          · exact Nat.le_trans hstop (Nat.le_trans hf (hfirst g hg))
      · next hbefore =>
          have hstop := stop_le_start_of_not_before (hapart f List.mem_cons_self)
            (Bool.eq_false_iff.mpr hbefore) he
          refine List.pairwise_cons.mpr ⟨?_, ih ?_ ?_ hrest⟩
          · intro g hg
            rcases mem_insertOrdered.mp hg with rfl | hg
            · exact hstop
            · exact hfirst g hg
          · exact List.forall_mem_cons.mpr ⟨he, hmore⟩
          · exact fun g hg => hapart g (List.mem_cons_of_mem f hg)

/-- Edits that stand apart follow each other when they are sorted. -/
theorem pairwise_sort {edits : List Edit} (hordered : ∀ e ∈ edits, e.start ≤ e.stop)
    (hapart : edits.Pairwise fun a b => a.range.Apart b.range) :
    (sort edits).Pairwise fun a b => a.stop ≤ b.start := by
  induction edits with
  | nil => exact .nil
  | cons e rest ih =>
      obtain ⟨hfirst, hrest⟩ := List.pairwise_cons.mp hapart
      obtain ⟨he, hmore⟩ := List.forall_mem_cons.mp hordered
      have hsorted := ih hmore hrest
      refine pairwise_insertOrdered (e := e) ?_ ?_ hsorted
      · exact List.forall_mem_cons.mpr ⟨he, fun f hf => hmore f (mem_sort.mp hf)⟩
      · exact fun f hf => hfirst f (mem_sort.mp hf)

/-- Edits that fit a text and follow each other from a byte on can be made. -/
theorem exists_applyFrom (front rest : List Char) {edits : List Edit}
    (hfits : ∀ e ∈ edits, e.Fits (front ++ rest))
    (hstart : ∀ e ∈ edits, byteLength front ≤ e.start)
    (hpairwise : edits.Pairwise fun a b => a.stop ≤ b.start) :
    ∃ output, applyFrom (byteLength (front ++ rest)) (byteLength front) rest edits = .ok output := by
  -- The first edit cuts the rest in three; what is behind it is the rest for the other edits.
  induction edits generalizing front rest with
  | nil => exact ⟨rest, rfl⟩
  | cons e more ih =>
      obtain ⟨hfirst, hmore⟩ := List.pairwise_cons.mp hpairwise
      obtain ⟨he, hothers⟩ := List.forall_mem_cons.mp hfits
      obtain ⟨kept, behind, rfl, hkept⟩ := he.start.exists_cut (hstart e List.mem_cons_self)
      have hstop := he.stop
      rw [← List.append_assoc] at hstop
      obtain ⟨replaced, after, rfl, hreplaced⟩ := hstop.exists_cut (by
        rw [Text.byteLength_append, ← hkept]
        exact he.ordered)
      rw [Text.byteLength_append] at hreplaced
      have hsplit : front ++ (kept ++ (replaced ++ after)) = (front ++ kept ++ replaced) ++ after := by
        simp
      have hcursor : byteLength (front ++ kept ++ replaced) = e.stop := by
        simp only [Text.byteLength_append]
        omega
      have hsize : e.stop ≤ byteLength (front ++ (kept ++ (replaced ++ after))) := by
        rw [hsplit, Text.byteLength_append]
        omega
      rw [hsplit] at hothers
      obtain ⟨output, houtput⟩ := ih _ _ hothers (fun f hf => hcursor ▸ hfirst f hf) hmore
      refine ⟨kept ++ e.text.toList ++ output, ?_⟩
      rw [applyFrom_cons hkept (by omega) hsize, hsplit, ← hcursor, houtput]
      rfl

/-- Edits that fit a text and stand apart from each other can be made. -/
theorem exists_output_of_apart {source : List Char} {edits : List Edit}
    (hfits : ∀ e ∈ edits, e.Fits source)
    (hapart : edits.Pairwise fun a b => a.range.Apart b.range) :
    ∃ output, applyAll source edits = .ok output := by
  have hsorted := pairwise_sort (fun e he => (hfits e he).ordered) hapart
  exact exists_applyFrom [] source (fun e he => hfits e (mem_sort.mp he))
    (fun _ _ => Nat.zero_le _) hsorted

end Localization.Edit
