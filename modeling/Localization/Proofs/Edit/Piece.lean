import Localization.Edit.Basic

/-!
What edits make of a text. Edits that can be applied cut the text into pieces, one for each edit: what is
kept in front of the edit, and what it replaces. Main statement: `applyAll_eq_ok_iff`.
-/

namespace Localization

open Text (byteLength splitAtByte)

/-- A piece of a text up to the end of an edit. -/
structure Piece where
  kept : List Char
  replaced : List Char
  edit : Edit
  deriving DecidableEq, Repr

namespace Piece

def before (p : Piece) : List Char :=
  p.kept ++ p.replaced

def after (p : Piece) : List Char :=
  p.kept ++ p.edit.text.toList

/-- Pieces that follow each other from a byte on, with every edit at its bytes. -/
def Placed : Nat → List Piece → Prop
  | _, [] => True
  | cursor, p :: rest =>
    p.edit.start = cursor + byteLength p.kept ∧
      p.edit.stop = p.edit.start + byteLength p.replaced ∧ Placed p.edit.stop rest

theorem Placed.stop_of_mem {cursor : Nat} {pieces : List Piece} {p : Piece}
    (h : Placed cursor pieces) (hp : p ∈ pieces) :
    p.edit.stop = p.edit.start + byteLength p.replaced := by
  induction pieces generalizing cursor with
  | nil => simp at hp
  | cons first rest ih =>
      obtain ⟨-, hstop, hrest⟩ := h
      rcases List.mem_cons.mp hp with rfl | hmem
      · exact hstop
      · exact ih hrest hmem

theorem Placed.isInsertion_of_mem {cursor : Nat} {pieces : List Piece} {p : Piece}
    (h : Placed cursor pieces) (hp : p ∈ pieces) (hreplaced : p.replaced ≠ []) :
    p.edit.isInsertion = false := by
  have hstop := h.stop_of_mem hp
  cases hcs : p.replaced with
  | nil => contradiction
  | cons c rest =>
      have hsize := c.utf8Size_pos
      rw [hcs, byteLength] at hstop
      simp only [Edit.isInsertion, beq_eq_false_iff_ne]
      omega

end Piece

namespace Edit

@[simp] theorem isInsertion_insert (place : Nat) (text : String) :
    (insert place text).isInsertion = true :=
  beq_self_eq_true place

theorem applyFrom_cons {size cursor : Nat} {kept replaced rest : List Char} {e : Edit}
    {edits : List Edit} (hstart : e.start = cursor + byteLength kept)
    (hstop : e.stop = e.start + byteLength replaced) (hsize : e.stop ≤ size) :
    applyFrom size cursor (kept ++ (replaced ++ rest)) (e :: edits) =
      (applyFrom size e.stop rest edits).map fun tail => kept ++ e.text.toList ++ tail := by
  have hkept : e.start - cursor = byteLength kept := by omega
  have hreplaced : e.stop - e.start = byteLength replaced := by omega
  rw [applyFrom, if_neg (by omega), if_neg (by omega), hkept, Text.splitAtByte_append, hreplaced]
  simp only [Text.splitAtByte_append]
  cases applyFrom size e.stop rest edits <;> rfl

/-- Edits that can be applied from a byte on cut the rest of the text into pieces. -/
theorem exists_cut_of_applyFrom {size cursor : Nat} {rest output : List Char} {e : Edit}
    {edits : List Edit} (h : applyFrom size cursor rest (e :: edits) = .ok output) :
    ∃ kept replaced after tail, rest = kept ++ (replaced ++ after) ∧
      e.start = cursor + byteLength kept ∧ e.stop = e.start + byteLength replaced ∧
      applyFrom size e.stop after edits = .ok tail ∧ output = kept ++ e.text.toList ++ tail := by
  rw [applyFrom] at h
  split at h
  · contradiction
  · next hinside =>
      split at h
      · contradiction
      · next hcursor =>
          split at h
          · contradiction
          · next kept fromStart hkept =>
              split at h
              · contradiction
              · next replaced after hreplaced =>
                  obtain ⟨rfl, hkeptLength⟩ := Text.eq_append_of_splitAtByte hkept
                  obtain ⟨rfl, hreplacedLength⟩ := Text.eq_append_of_splitAtByte hreplaced
                  cases htail : applyFrom size e.stop after edits with
                  | error f => simp [htail, bind, Except.bind] at h
                  | ok tail =>
                      simp only [htail, bind, Except.bind, Except.ok.injEq] at h
                      exact ⟨kept, replaced, after, tail, rfl, by omega, by omega, htail, h.symm⟩

/-- What stands in front of the first edit is kept, and the edits can be made from there on. -/
theorem exists_front_of_applyFrom {size cursor : Nat} {rest output : List Char} {e : Edit}
    {edits : List Edit} (h : applyFrom size cursor rest (e :: edits) = .ok output) :
    ∃ kept behind code, rest = kept ++ behind ∧ output = kept ++ code ∧
      e.start = cursor + byteLength kept ∧ e.text.toList <+: code ∧
      applyFrom size e.start behind (e :: edits) = .ok code := by
  have hsize : e.stop ≤ size := by
    rw [applyFrom] at h
    split at h
    · contradiction
    · omega
  obtain ⟨kept, replaced, after, tail, rfl, hstart, hstop, htail, rfl⟩ := exists_cut_of_applyFrom h
  refine ⟨kept, replaced ++ after, e.text.toList ++ tail, rfl, List.append_assoc .., hstart,
    List.prefix_append _ _, ?_⟩
  have hcons := @applyFrom_cons size e.start [] replaced after e edits rfl hstop hsize
  rw [htail] at hcons
  exact hcons

theorem applyFrom_eq_ok_iff {size cursor : Nat} {rest output : List Char} {edits : List Edit}
    (hsize : size = cursor + byteLength rest) :
    applyFrom size cursor rest edits = .ok output ↔
      ∃ pieces tail, pieces.map Piece.edit = edits ∧ Piece.Placed cursor pieces ∧
        rest = pieces.flatMap Piece.before ++ tail ∧
        output = pieces.flatMap Piece.after ++ tail := by
  -- The rest of the text is what stands behind the cursor, which every edit moves to its own end.
  induction edits generalizing cursor rest output with
  | nil =>
      rw [applyFrom, Except.ok.injEq]
      constructor
      · rintro rfl
        exact ⟨[], rest, rfl, trivial, rfl, rfl⟩
      · rintro ⟨pieces, tail, hedits, -, hrest, houtput⟩
        obtain rfl := List.map_eq_nil_iff.mp hedits
        rw [hrest, houtput]
        rfl
  | cons e more ih =>
      constructor
      · intro h
        obtain ⟨kept, replaced, after, tail, rfl, hstart, hstop, htail, rfl⟩ :=
          exists_cut_of_applyFrom h
        simp only [Text.byteLength_append] at hsize
        obtain ⟨pieces, last, hedits, hplaced, rfl, rfl⟩ := (ih (by omega)).mp htail
        refine ⟨⟨kept, replaced, e⟩ :: pieces, last, ?_, ⟨hstart, hstop, hplaced⟩, ?_, ?_⟩
        · rw [List.map_cons, hedits]
        · simp [Piece.before]
        · simp [Piece.after]
      · rintro ⟨pieces, tail, hedits, hplaced, rfl, rfl⟩
        cases pieces with
        | nil => simp at hedits
        | cons p pieces =>
            obtain ⟨hstart, hstop, hplaced⟩ := hplaced
            rw [List.map_cons, List.cons.injEq] at hedits
            obtain ⟨rfl, hmore⟩ := hedits
            simp only [List.flatMap_cons, Piece.before, Piece.after, List.append_assoc,
              Text.byteLength_append] at hsize ⊢
            rw [applyFrom_cons hstart hstop (by omega), (ih ?_).mpr
              ⟨pieces, tail, hmore, hplaced, rfl, rfl⟩]
            · simp [Except.map]
            · simp only [Text.byteLength_append]
              omega

/-- Edits can be applied exactly if, in order, they cut the source into pieces; the output is put
together from the pieces with the edits made, and everything else is kept. -/
theorem applyAll_eq_ok_iff {source output : List Char} {edits : List Edit} :
    applyAll source edits = .ok output ↔
      ∃ pieces tail, pieces.map Piece.edit = sort edits ∧ Piece.Placed 0 pieces ∧
        source = pieces.flatMap Piece.before ++ tail ∧
        output = pieces.flatMap Piece.after ++ tail :=
  applyFrom_eq_ok_iff (by omega)

theorem mem_insertOrdered {e f : Edit} {edits : List Edit} :
    f ∈ insertOrdered e edits ↔ f = e ∨ f ∈ edits := by
  induction edits with
  | nil => simp [insertOrdered]
  | cons g rest ih =>
      rw [insertOrdered]
      split
      · simp
      · simp only [List.mem_cons, ih]
        exact or_left_comm

theorem mem_sort {f : Edit} {edits : List Edit} : f ∈ sort edits ↔ f ∈ edits := by
  induction edits with
  | nil => rfl
  | cons e rest ih =>
      rw [sort, List.foldr_cons, mem_insertOrdered, List.mem_cons]
      exact or_congr_right ih

end Edit

end Localization
