import Localization.Text.Blank
import Localization.Text.Bytes

/-!
The white space at the ends of a text, byte offsets that fall between two characters, and the slices and
trimmed slices between them. Main statement: `exists_isTrimmed`, which divides a text into its middle and the
blanks around it.
-/

namespace Localization.Text

/-! ## White space -/

theorem exists_append_trimLeft (cs : List Char) :
    ∃ blanks, (∀ c ∈ blanks, isBlank c = true) ∧ cs = blanks ++ trimLeft cs :=
  ⟨cs.takeWhile isBlank, List.all_eq_true.mp List.all_takeWhile, List.takeWhile_append_dropWhile.symm⟩

theorem exists_trimRight_append (cs : List Char) :
    ∃ blanks, (∀ c ∈ blanks, isBlank c = true) ∧ cs = trimRight cs ++ blanks := by
  induction cs with
  | nil => exact ⟨[], by simp, rfl⟩
  | cons c rest ih =>
      obtain ⟨blanks, hblanks, hrest⟩ := ih
      rw [trimRight]
      split
      · next hnil =>
          rw [hnil, List.nil_append] at hrest
          split
          · next hc => exact ⟨c :: rest, List.forall_mem_cons.mpr ⟨hc, hrest ▸ hblanks⟩, rfl⟩
          · exact ⟨rest, hrest ▸ hblanks, rfl⟩
      · exact ⟨blanks, hblanks, congrArg (c :: ·) hrest⟩

theorem mem_of_mem_trimRight {c : Char} {cs : List Char} (h : c ∈ trimRight cs) : c ∈ cs := by
  obtain ⟨blanks, -, hblanks⟩ := exists_trimRight_append cs
  rw [hblanks]
  exact List.mem_append_left blanks h

theorem mem_of_mem_trim {c : Char} {cs : List Char} (h : c ∈ trim cs) : c ∈ cs :=
  (List.dropWhile_sublist _).subset (mem_of_mem_trimRight h)

theorem trim_of_blank {cs : List Char} (h : ∀ c ∈ cs, isBlank c = true) : trim cs = [] := by
  induction cs with
  | nil => rfl
  | cons c rest ih =>
      rw [trim, trimLeft, List.dropWhile_cons_of_pos (h c List.mem_cons_self)]
      exact ih fun d hd => h d (List.mem_cons_of_mem c hd)

theorem trim_eq_nil_iff {cs : List Char} : trim cs = [] ↔ ∀ c ∈ cs, isBlank c = true := by
  refine ⟨fun h => ?_, trim_of_blank⟩
  obtain ⟨front, hfront, hcs⟩ := exists_append_trimLeft cs
  obtain ⟨back, hback, hrest⟩ := exists_trimRight_append (trimLeft cs)
  have hkept : trimRight (trimLeft cs) = [] := h
  rw [hkept, List.nil_append] at hrest
  rw [hcs, hrest]
  exact List.forall_mem_append.mpr ⟨hfront, hback⟩

/-! ### The middle of a text -/

/-- A text that neither begins nor ends with a blank. -/
structure IsTrimmed (text : List Char) : Prop where
  nonempty : text ≠ []
  head : ∀ c ∈ text.head?, isBlank c = false
  last : ∀ c ∈ text.getLast?, isBlank c = false

theorem getLast?_trimRight {cs : List Char} : ∀ c ∈ (trimRight cs).getLast?, isBlank c = false := by
  induction cs with
  | nil => simp [trimRight]
  | cons d rest ih =>
      rw [trimRight]
      split
      · split
        · simp
        · next hd =>
            intro c hc
            obtain rfl := Option.some.inj hc
            exact Bool.eq_false_iff.mpr hd
      · next hkept =>
          intro c hc
          rw [List.getLast?_cons_of_ne_nil hkept] at hc
          exact ih c hc

/-- What trimming leaves is trimmed, if it leaves anything. -/
theorem isTrimmed_trim {cs : List Char} (h : trim cs ≠ []) : IsTrimmed (trim cs) := by
  refine ⟨h, ?_, getLast?_trimRight⟩
  intro c hc
  obtain ⟨back, -, hrest⟩ := exists_trimRight_append (trimLeft cs)
  have hhead : c ∈ (trimLeft cs).head? := by
    rw [hrest, List.head?_append, ← trim, Option.mem_def.mp hc]
    rfl
  obtain ⟨tail, htail⟩ := List.head?_eq_some_iff.mp hhead
  have hdropped := List.head?_dropWhile_not isBlank cs
  rw [← trimLeft, htail] at hdropped
  simpa using hdropped

theorem trimRight_append {front cs : List Char} (h : trimRight cs ≠ []) :
    trimRight (front ++ cs) = front ++ trimRight cs := by
  induction front with
  | nil => rfl
  | cons c rest ih =>
      rw [List.cons_append, trimRight, ih]
      split
      · next hnil => exact absurd (List.append_eq_nil_iff.mp hnil).2 h
      · rfl

/-- A text with something in it that is not blank has a middle, which trimming at either end finds. -/
theorem exists_isTrimmed {cs : List Char} (h : ∃ c ∈ cs, isBlank c = false) :
    ∃ front text back, IsTrimmed text ∧ (∀ c ∈ front, isBlank c = true) ∧
      (∀ c ∈ back, isBlank c = true) ∧ cs = front ++ text ++ back ∧
      trimLeft cs = text ++ back ∧ trimRight cs = front ++ text := by
  obtain ⟨front, hfront, hcs⟩ := exists_append_trimLeft cs
  obtain ⟨back, hback, hrest⟩ := exists_trimRight_append (trimLeft cs)
  have hmiddle : trim cs ≠ [] := by
    rw [Ne, trim_eq_nil_iff]
    intro hblank
    obtain ⟨c, hc, hkept⟩ := h
    rw [hblank c hc] at hkept
    contradiction
  refine ⟨front, trim cs, back, isTrimmed_trim hmiddle, hfront, hback, ?_, hrest, ?_⟩
  · rw [trim, List.append_assoc, ← hrest]
    exact hcs
  · rw [trim, ← trimRight_append hmiddle, ← hcs]

/-! ## Byte offsets -/

/-- A byte offset at which a text can be cut. -/
def IsBoundary (cs : List Char) (n : Nat) : Prop :=
  (splitAtByte cs n).isSome = true

instance (cs : List Char) (n : Nat) : Decidable (IsBoundary cs n) :=
  inferInstanceAs (Decidable (_ = true))

theorem isBoundary_iff {cs : List Char} {n : Nat} :
    IsBoundary cs n ↔ ∃ before after, cs = before ++ after ∧ byteLength before = n := by
  rw [IsBoundary, Option.isSome_iff_exists]
  constructor
  · rintro ⟨⟨before, after⟩, h⟩
    exact ⟨before, after, eq_append_of_splitAtByte h⟩
  · rintro ⟨before, after, rfl, rfl⟩
    exact ⟨_, splitAtByte_append before after⟩

theorem byteLength_eq_zero {cs : List Char} : byteLength cs = 0 ↔ cs = [] := by
  cases cs with
  | nil => simp [byteLength]
  | cons c rest =>
      have hsize := c.utf8Size_pos
      simp only [byteLength, reduceCtorEq, iff_false]
      omega

/-- A boundary behind the first part of a text cuts the second part. -/
theorem IsBoundary.exists_cut {front cs : List Char} {n : Nat} (h : IsBoundary (front ++ cs) n)
    (hn : byteLength front ≤ n) :
    ∃ kept rest, cs = kept ++ rest ∧ n = byteLength front + byteLength kept := by
  obtain ⟨before, after, heq, rfl⟩ := isBoundary_iff.mp h
  rcases List.append_eq_append_iff.mp heq with ⟨kept, rfl, rfl⟩ | ⟨more, rfl, rfl⟩
  · exact ⟨kept, after, rfl, byteLength_append front kept⟩
  · rw [byteLength_append] at hn
    obtain rfl := byteLength_eq_zero.mp (show byteLength more = 0 by omega)
    exact ⟨[], cs, rfl, by simp [byteLength]⟩

/-- The text between two boundaries. -/
theorem exists_slice {cs : List Char} {lo hi : Nat} (hlo : IsBoundary cs lo)
    (hhi : IsBoundary cs hi) (hle : lo ≤ hi) :
    ∃ before after, cs = before ++ (sliceBytes cs lo hi ++ after) ∧ byteLength before = lo ∧
      lo + byteLength (sliceBytes cs lo hi) = hi := by
  obtain ⟨before, rest, rfl, rfl⟩ := isBoundary_iff.mp hlo
  obtain ⟨middle, after, rfl, rfl⟩ := hhi.exists_cut hle
  have hslice : sliceBytes (before ++ (middle ++ after)) (byteLength before)
      (byteLength before + byteLength middle) = middle := by
    simp only [sliceBytes, splitAtByte_append, Nat.add_sub_cancel_left, Option.map_some,
      Option.getD_some]
  rw [hslice]
  exact ⟨before, after, rfl, rfl, rfl⟩

/-- A slice without its leading white space begins at a boundary. -/
theorem isBoundary_trimLeft {cs : List Char} {lo hi : Nat} (hlo : IsBoundary cs lo)
    (hhi : IsBoundary cs hi) (hle : lo ≤ hi) :
    IsBoundary cs (lo + (byteLength (sliceBytes cs lo hi) -
      byteLength (trimLeft (sliceBytes cs lo hi)))) := by
  obtain ⟨before, after, hcs, rfl, -⟩ := exists_slice hlo hhi hle
  generalize sliceBytes cs (byteLength before) hi = slice at hcs
  obtain ⟨blanks, -, hblanks⟩ := exists_append_trimLeft slice
  have hlength := congrArg byteLength hblanks
  rw [byteLength_append] at hlength
  refine isBoundary_iff.mpr ⟨before ++ blanks, trimLeft slice ++ after, ?_, ?_⟩
  · rw [hcs, List.append_assoc, ← List.append_assoc blanks, ← hblanks]
  · rw [byteLength_append]
    omega

/-- A slice without its trailing white space ends at a boundary. -/
theorem isBoundary_trimRight {cs : List Char} {lo hi : Nat} (hlo : IsBoundary cs lo)
    (hhi : IsBoundary cs hi) (hle : lo ≤ hi) :
    IsBoundary cs (hi - (byteLength (sliceBytes cs lo hi) -
      byteLength (trimRight (sliceBytes cs lo hi)))) := by
  obtain ⟨before, after, hcs, rfl, hstop⟩ := exists_slice hlo hhi hle
  generalize sliceBytes cs (byteLength before) hi = slice at hcs hstop
  obtain ⟨blanks, -, hblanks⟩ := exists_trimRight_append slice
  have hlength := congrArg byteLength hblanks
  rw [byteLength_append] at hlength
  refine isBoundary_iff.mpr ⟨before ++ trimRight slice, blanks ++ after, ?_, ?_⟩
  · rw [hcs, List.append_assoc, ← List.append_assoc (trimRight slice), ← hblanks]
  · rw [byteLength_append]
    omega

end Localization.Text
