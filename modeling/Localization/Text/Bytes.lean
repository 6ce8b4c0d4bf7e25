/-!
Byte offsets. Positions in a source text are counted in bytes of its UTF-8 form, while the text itself
is read as a list of characters; `splitAtByte` ties the two together and says when an offset does not
fall on a character boundary.
-/

namespace Localization.Text

/-- The number of bytes of the UTF-8 form. -/
def byteLength : List Char → Nat
  | [] => 0
  | c :: rest => c.utf8Size + byteLength rest

/-- Cuts a text after `n` bytes; `none` when that is past the end or inside a character. -/
def splitAtByte : List Char → Nat → Option (List Char × List Char)
  | cs, 0 => some ([], cs)
  | [], _ + 1 => none
  | c :: rest, n + 1 =>
    if c.utf8Size ≤ n + 1 then
      (splitAtByte rest (n + 1 - c.utf8Size)).map fun (before, after) => (c :: before, after)
    else none

/-- The characters from byte `lo` to byte `hi`; empty when an offset is not a boundary. -/
def sliceBytes (cs : List Char) (lo hi : Nat) : List Char :=
  match splitAtByte cs lo with
  | none => []
  | some (_, after) => ((splitAtByte after (hi - lo)).map Prod.fst).getD []

/-- The characters before byte `n`; the whole text when `n` is past the end. -/
def takeBytes : List Char → Nat → List Char
  | [], _ => []
  | c :: rest, n => if c.utf8Size ≤ n then c :: takeBytes rest (n - c.utf8Size) else []

def dropBytes : List Char → Nat → List Char
  | [], _ => []
  | c :: rest, n => if c.utf8Size ≤ n then dropBytes rest (n - c.utf8Size) else c :: rest

theorem byteLength_append (a b : List Char) :
    byteLength (a ++ b) = byteLength a + byteLength b := by
  induction a with
  | nil => simp [byteLength]
  | cons c rest ih => simp [byteLength, ih, Nat.add_assoc]

theorem splitAtByte_append (before after : List Char) :
    splitAtByte (before ++ after) (byteLength before) = some (before, after) := by
  induction before with
  | nil => cases after <;> simp [byteLength, splitAtByte]
  | cons c rest ih =>
    have hc : 0 < c.utf8Size := c.utf8Size_pos
    obtain ⟨n, hn⟩ : ∃ n, c.utf8Size + byteLength rest = n + 1 :=
      ⟨c.utf8Size + byteLength rest - 1, by omega⟩
    have hsub : n + 1 - c.utf8Size = byteLength rest := by omega
    have hle : c.utf8Size ≤ n + 1 := by omega
    simp only [byteLength, List.cons_append, hn, splitAtByte, hle, if_true, hsub, ih,
      Option.map_some]

theorem eq_append_of_splitAtByte {cs before after : List Char} {n : Nat}
    (h : splitAtByte cs n = some (before, after)) :
    cs = before ++ after ∧ byteLength before = n := by
  induction cs generalizing n before after with
  | nil =>
    cases n with
    | zero => simp [splitAtByte] at h; simp [h, byteLength]
    | succ n => simp [splitAtByte] at h
  | cons c rest ih =>
    cases n with
    | zero =>
      simp only [splitAtByte, Option.some.injEq, Prod.mk.injEq] at h
      obtain ⟨rfl, rfl⟩ := h
      exact ⟨rfl, rfl⟩
    | succ n =>
      simp only [splitAtByte] at h
      split at h
      · next hle =>
        obtain ⟨⟨a, b⟩, hab, heq⟩ := Option.map_eq_some_iff.1 h
        simp only [Prod.mk.injEq] at heq
        obtain ⟨rfl, rfl⟩ := heq
        obtain ⟨h₁, h₂⟩ := ih hab
        refine ⟨by simp [← h₁], ?_⟩
        simp only [byteLength, h₂]
        omega
      · simp at h

end Localization.Text
