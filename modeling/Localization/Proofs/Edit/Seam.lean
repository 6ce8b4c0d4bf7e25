import Localization.Proofs.Edit.Piece
import Localization.Proofs.Text.LineEnd

/-!
Line feeds where edits meet the text. What stands in front of a line feed changes at the start and at the end
of an edit only. Main statement: `eachFeed_of_applyAll`.
-/

namespace Localization

open Text (byteLength EachFeed EachFeedBehind eachFeed_iff eachFeedBehind_append)

variable {good : Option Char → Prop} {source output : List Char} {e : Edit} {edits : List Edit}

/-- An edit puts no line feed behind what it should not stand behind: none of its text, also where that begins,
and not the one that it may be written in front of. -/
structure Edit.Joins (good : Option Char → Prop) (source : List Char) (e : Edit) : Prop where
  nonempty : e.text.toList ≠ []
  inside : ∃ before, EachFeedBehind good before e.text.toList
  start : ∀ front back, source = front ++ back → byteLength front = e.start →
    e.text.toList.head? = some '\n' → good front.getLast?
  stop : ∀ front back, source = front ++ back → byteLength front = e.stop →
    back.head? = some '\n' → good e.text.toList.getLast?

theorem Edit.Joins.eachFeedBehind (h : e.Joins good source) {before : Option Char}
    (hstart : e.text.toList.head? = some '\n' → good before) : EachFeedBehind good before e.text.toList := by
  obtain ⟨_, hinside⟩ := h.inside
  exact hinside.moved hstart

/-- The text behind `front`, once its edits are made, is written behind `before`. It begins with what stood
there or with the text of an edit. -/
theorem Piece.eachFeedBehind_after {pieces : List Piece} {front tail : List Char} {before : Option Char}
    (hplaced : Placed (byteLength front) pieces)
    (hsource : source = front ++ (pieces.flatMap Piece.before ++ tail))
    (hfeeds : EachFeed good source) (hjoins : ∀ p ∈ pieces, p.edit.Joins good source)
    (hmeet : ∀ p ∈ pieces, ∀ q ∈ pieces, q.edit.text.toList.head? = some '\n' →
      good p.edit.text.toList.getLast?)
    (hkept : (pieces.flatMap Piece.before ++ tail).head? = some '\n' → good before)
    (hedit : ∀ p ∈ pieces, p.edit.start = byteLength front →
      p.edit.text.toList.head? = some '\n' → good before) :
    EachFeedBehind good before (pieces.flatMap Piece.after ++ tail) := by
  have hrest : EachFeedBehind good (front.getLast?.or none) (pieces.flatMap Piece.before ++ tail) := by
    rw [eachFeed_iff, hsource, eachFeedBehind_append] at hfeeds
    exact hfeeds.2
  induction pieces generalizing front before with
  | nil => exact hrest.moved hkept
  | cons p rest ih =>
      obtain ⟨hstart, hstop, hplaced⟩ := hplaced
      obtain ⟨hjoin, hjoins⟩ := List.forall_mem_cons.mp hjoins
      simp only [List.flatMap_cons, Piece.before, Piece.after, List.append_assoc] at hsource hkept hrest ⊢
      rw [eachFeedBehind_append] at hrest
      obtain ⟨hfirst, hrest⟩ := hrest
      have hfront : byteLength (front ++ p.kept ++ p.replaced) = p.edit.stop := by
        simp only [Text.byteLength_append]
        omega
      have hcut : source = front ++ p.kept ++ p.replaced ++ (rest.flatMap Piece.before ++ tail) := by
        simp only [hsource, List.append_assoc]
      rw [eachFeedBehind_append, eachFeedBehind_append]
      refine ⟨hfirst.moved fun hhead => hkept ?_, hjoin.eachFeedBehind fun hhead => ?_, ?_⟩
      · rw [List.head?_append, hhead]
        rfl
      · -- The text of the edit is written behind what is kept, or directly behind another edit.
        by_cases hnil : p.kept = []
        · rw [hnil, List.getLast?_nil, Option.none_or]
          refine hedit p List.mem_cons_self ?_ hhead
          rw [hstart, hnil]
          rfl
        · have hgood := hjoin.start (front ++ p.kept) _ (by rw [hsource, List.append_assoc])
            (by rw [Text.byteLength_append, hstart]) hhead
          rw [List.getLast?_append, List.getLast?_eq_some_getLast hnil, Option.some_or] at hgood
          rwa [List.getLast?_eq_some_getLast hnil, Option.some_or]
      · rw [List.getLast?_eq_some_getLast hjoin.nonempty, Option.some_or,
          ← List.getLast?_eq_some_getLast hjoin.nonempty]
        refine ih (hfront ▸ hplaced) hcut hjoins ?_ ?_ ?_ ?_
        · intro q hq r hr
          exact hmeet q (List.mem_cons_of_mem p hq) r (List.mem_cons_of_mem p hr)
        · exact hjoin.stop _ _ hcut hfront
        · intro q hq _
          exact hmeet p List.mem_cons_self q (List.mem_cons_of_mem p hq)
        · rw [eachFeed_iff, hcut, eachFeedBehind_append] at hfeeds
          exact hfeeds.2

/-- Line feeds stand behind what they should after edits that put none elsewhere, where texts of edits that
meet do not put one elsewhere. -/
theorem Edit.eachFeed_of_applyAll (h : applyAll source edits = .ok output) (hfeeds : EachFeed good source)
    (hjoins : ∀ e ∈ edits, e.Joins good source)
    (hmeet : ∀ e ∈ edits, ∀ f ∈ edits, f.text.toList.head? = some '\n' → good e.text.toList.getLast?) :
    EachFeed good output := by
  obtain ⟨pieces, tail, hedits, hplaced, hsource, rfl⟩ := applyAll_eq_ok_iff.mp h
  have hmem {p : Piece} (hp : p ∈ pieces) : p.edit ∈ edits := by
    rw [← mem_sort, ← hedits]
    exact List.mem_map_of_mem hp
  rw [eachFeed_iff]
  refine @Piece.eachFeedBehind_after _ _ pieces [] tail none hplaced hsource hfeeds
    (fun p hp => hjoins _ (hmem hp)) (fun p hp q hq => hmeet _ (hmem hp) _ (hmem hq)) ?_ ?_
  · intro hhead
    rw [eachFeed_iff, hsource] at hfeeds
    exact hfeeds.good_of_head? hhead
  · intro p hp hstart hhead
    exact (hjoins _ (hmem hp)).start [] source rfl hstart.symm hhead

end Localization
