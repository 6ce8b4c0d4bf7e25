import Localization.Text.Order
import Mathlib.Data.List.Sort
import Mathlib.Data.String.Basic

/-!
Sorting by a text keeps the items and puts their texts in order. It is the insertion sort of the library, and
the order of texts is the order of their UTF-8 bytes. Main statement: `bytes_lt_iff`.
-/

/-! ## Sorting -/

namespace Localization.Text

variable {α : Type} (text : α → String)

theorem insertBy_eq_orderedInsert (a : α) (items : List α) :
    insertBy text a items = items.orderedInsert (fun a b => text a ≤ text b) a := by
  induction items with
  | nil => rfl
  | cons b rest ih =>
      rw [insertBy, List.orderedInsert_cons, ih]
      by_cases h : text b < text a
      · rw [if_pos h, if_neg (not_le.mpr h)]
      · rw [if_neg h, if_pos (not_lt.mp h)]

theorem sortBy_eq_insertionSort (items : List α) :
    sortBy text items = items.insertionSort fun a b => text a ≤ text b := by
  induction items with
  | nil => rfl
  | cons a rest ih =>
      change insertBy text a (sortBy text rest) = _
      rw [ih, insertBy_eq_orderedInsert]
      rfl

theorem perm_sortBy (items : List α) : (sortBy text items).Perm items := by
  rw [sortBy_eq_insertionSort]
  exact List.perm_insertionSort _ items

theorem pairwise_sortBy (items : List α) :
    (sortBy text items).Pairwise fun a b => text a ≤ text b := by
  have htotal : Std.Total fun a b : α => text a ≤ text b := ⟨fun a b => le_total _ _⟩
  have htrans : IsTrans α fun a b : α => text a ≤ text b := ⟨fun _ _ _ hab hbc => hab.trans hbc⟩
  rw [sortBy_eq_insertionSort]
  exact List.pairwise_insertionSort _ items

theorem sortBy_sortBy (items : List α) : sortBy text (sortBy text items) = sortBy text items := by
  rw [sortBy_eq_insertionSort _ (sortBy text items)]
  exact (pairwise_sortBy text items).insertionSort_eq

theorem mem_insertNew {s t : String} {texts : List String} :
    t ∈ insertNew s texts ↔ t = s ∨ t ∈ texts := by
  induction texts with
  | nil => simp [insertNew]
  | cons first rest ih =>
      rw [insertNew]
      split
      · rw [List.mem_cons, ih, List.mem_cons]
        tauto
      split
      · next hfirst => simp [hfirst]
      · simp

theorem mem_sortedSet {s : String} {texts : List String} : s ∈ sortedSet texts ↔ s ∈ texts := by
  induction texts with
  | nil => rfl
  | cons t rest ih => rw [sortedSet, List.foldr_cons, mem_insertNew, List.mem_cons, ← ih, sortedSet]

theorem pairwise_insertNew {s : String} {texts : List String} (h : texts.Pairwise (· < ·)) :
    (insertNew s texts).Pairwise (· < ·) := by
  induction texts with
  | nil => simp [insertNew]
  | cons first rest ih =>
      obtain ⟨hfirst, hrest⟩ := List.pairwise_cons.mp h
      rw [insertNew]
      split
      · next hless =>
          refine List.pairwise_cons.mpr ⟨fun t ht => ?_, ih hrest⟩
          rcases mem_insertNew.mp ht with rfl | ht
          · exact hless
          · exact hfirst t ht
      split
      · exact h
      · next hgreater hne =>
          have hs : s < first := lt_of_le_of_ne (not_lt.mp hgreater) (Ne.symm hne)
          refine List.pairwise_cons.mpr ⟨fun t ht => ?_, h⟩
          rcases List.mem_cons.mp ht with rfl | ht
          · exact hs
          · exact hs.trans (hfirst t ht)

theorem pairwise_sortedSet (texts : List String) : (sortedSet texts).Pairwise (· < ·) := by
  induction texts with
  | nil => exact List.Pairwise.nil
  | cons t rest ih => exact pairwise_insertNew ih

end Localization.Text

/-! ## Bytes -/

namespace Localization.Text

open String (utf8EncodeChar)

variable {s t : String}

/-- The UTF-8 form of a text. -/
def bytes (s : String) : List UInt8 :=
  s.toUTF8.data.toList

theorem bytes_eq_flatMap (s : String) : bytes s = s.toList.flatMap utf8EncodeChar := by
  rw [bytes, String.toUTF8_eq_toByteArray, ← String.utf8Encode_toList, List.utf8Encode,
    List.data_toByteArray]

theorem ofNat_lt_iff {m n : Nat} (hm : m < 256) (hn : n < 256) :
    UInt8.ofNat m < UInt8.ofNat n ↔ m < n := by
  rw [UInt8.lt_iff_toNat_lt, UInt8.toNat_ofNat_of_lt' hm, UInt8.toNat_ofNat_of_lt' hn]

theorem ofNat_eq_iff {m n : Nat} (hm : m < 256) (hn : n < 256) :
    UInt8.ofNat m = UInt8.ofNat n ↔ m = n := by
  rw [← UInt8.toNat_inj, UInt8.toNat_ofNat_of_lt' hm, UInt8.toNat_ofNat_of_lt' hn]

/-- Code points are in the order of their digits to the base 64, the first digit first. -/
theorem digits_lt {m n : Nat} (h : m < n) (hn : n < 0x110000) :
    m / 262144 % 8 < n / 262144 % 8 ∨ m / 262144 % 8 = n / 262144 % 8 ∧
      (m / 4096 % 64 < n / 4096 % 64 ∨ m / 4096 % 64 = n / 4096 % 64 ∧
        (m / 64 % 64 < n / 64 % 64 ∨ m / 64 % 64 = n / 64 % 64 ∧ m % 64 < n % 64)) := by
  have hfirst : m / 262144 ≤ n / 262144 := Nat.div_le_div_right h.le
  have hsecond : m / 4096 ≤ n / 4096 := Nat.div_le_div_right h.le
  have hthird : m / 64 ≤ n / 64 := Nat.div_le_div_right h.le
  rcases hfirst.lt_or_eq with hfirst | hfirst
  · left
    omega
  rcases hsecond.lt_or_eq with hsecond | hsecond
  · omega
  rcases hthird.lt_or_eq with hthird | hthird
  · omega
  · omega

/-- The first byte in which two characters differ decides, and it comes before what follows them: a longer
form begins with a greater byte. -/
theorem encode_append_lt {c d : Char} (h : c < d) (rest others : List UInt8) :
    utf8EncodeChar c ++ rest < utf8EncodeChar d ++ others := by
  have hval : c.val.toNat < d.val.toNat := h
  have hd : d.val.toNat < 0x110000 := by grind [d.valid]
  have hdigits := digits_lt hval hd
  simp only [utf8EncodeChar]
  split_ifs <;>
    simp (disch := omega) only [List.cons_append, List.nil_append, List.cons_lt_cons_iff,
      ofNat_lt_iff, ofNat_eq_iff] <;>
    omega

theorem flatMap_encode_lt {cs ds : List Char} (h : List.Lex (· < ·) cs ds) :
    cs.flatMap utf8EncodeChar < ds.flatMap utf8EncodeChar := by
  induction h with
  | @nil d rest =>
      rw [List.flatMap_cons]
      cases hbytes : utf8EncodeChar d with
      | nil => simp at hbytes
      | cons b bs => exact .nil
  | rel hless =>
      rw [List.flatMap_cons, List.flatMap_cons]
      exact encode_append_lt hless _ _
  | cons _ ih =>
      rw [List.flatMap_cons, List.flatMap_cons]
      exact List.append_left_lt ih

theorem bytes_lt_of_lt (h : s < t) : bytes s < bytes t := by
  rw [bytes_eq_flatMap, bytes_eq_flatMap]
  exact flatMap_encode_lt (String.lt_iff_toList_lt.mp h)

theorem bytes_lt_iff : bytes s < bytes t ↔ s < t := by
  constructor
  · intro h
    by_contra hnot
    rcases (not_lt.mp hnot).lt_or_eq with hless | rfl
    · exact List.lt_asymm h (bytes_lt_of_lt hless)
    · exact List.lt_irrefl _ h
  · exact bytes_lt_of_lt

end Localization.Text
