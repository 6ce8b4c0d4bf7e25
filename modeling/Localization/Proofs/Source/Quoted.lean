import Localization.Text.Quoted
import Localization.Source.Scan

/-!
Strings of a source in their written form. Main statement: `tokenAt_encode`, by which the written form of a
text is one string token with that text as its value.
-/

namespace Localization.Source

open Text (byteLength byteLength_append)
open Text.Quoted (encode encodeChars escape hexDigit hexValue?_hexDigit utf8Size_hexDigit toList_encode)

variable {codes : List Nat} {tail : List Char} {offset : Nat}

/-! ### Escapes -/

/-- A backslash and a letter that stands for a character. -/
theorem scanString_letter {c letter : Char} (h : escapeAt (letter :: tail) = some ([c.toNat], 1))
    (hsize : letter.utf8Size = 1) : scanString '\x22' codes 0 ('\\' :: letter :: tail) offset =
      scanString '\x22' (c.toNat :: codes) 0 tail (offset + 2) := by
  have hquote : '\\' ≠ '\x22' := by decide
  have hline : ¬('\\' = '\n' ∨ '\\' = '\r') := by decide
  rw [scanString, if_neg hquote, if_neg hline, if_pos rfl, h]
  simp only [List.singleton_append, scanString, hsize]

theorem escapeAt_unicode {n : Nat} (h : n < 32) :
    escapeAt ('u' :: '0' :: '0' :: hexDigit (n / 16) :: hexDigit (n % 16) :: tail) = some ([n], 5) := by
  have hhigh : n / 16 < 16 := by omega
  have hlow : n % 16 < 16 := by omega
  have hvalue : 16 * (n / 16) + n % 16 = n := by omega
  simp [escapeAt, hexNumber?, hexValue?_hexDigit hhigh, hexValue?_hexDigit hlow, hvalue,
    show Text.Quoted.hexValue? '0' = some 0 from rfl]

theorem byteLength_unicode {n : Nat} (h : n < 32) :
    byteLength ['\\', 'u', '0', '0', hexDigit (n / 16), hexDigit (n % 16)] = 6 := by
  have hhigh : n / 16 < 16 := by omega
  have hlow : n % 16 < 16 := by omega
  simp [byteLength, utf8Size_hexDigit hhigh, utf8Size_hexDigit hlow]
  rfl

theorem scanString_unicode {n : Nat} (h : n < 32) :
    scanString '\x22' codes 0
        ('\\' :: 'u' :: '0' :: '0' :: hexDigit (n / 16) :: hexDigit (n % 16) :: tail) offset =
      scanString '\x22' (n :: codes) 0 tail (offset + 6) := by
  have hhigh : (hexDigit (n / 16)).utf8Size = 1 := utf8Size_hexDigit (by omega)
  have hlow : (hexDigit (n % 16)).utf8Size = 1 := utf8Size_hexDigit (by omega)
  have hquote : '\\' ≠ '\x22' := by decide
  have hline : ¬('\\' = '\n' ∨ '\\' = '\r') := by decide
  rw [scanString, if_neg hquote, if_neg hline, if_pos rfl, escapeAt_unicode h]
  simp only [List.singleton_append, scanString, hhigh, hlow]
  rfl

/-- The written form of a character is read as that character. -/
theorem scanString_escape (c : Char) : scanString '\x22' codes 0 (escape c ++ tail) offset =
    scanString '\x22' (c.toNat :: codes) 0 tail (offset + byteLength (escape c)) := by
  have hletter (d : Char) {letter : Char} (hread : escapeAt (letter :: tail) = some ([d.toNat], 1))
      (hsize : letter.utf8Size = 1) (hc : c.toNat = d.toNat) :
      scanString '\x22' codes 0 (['\\', letter] ++ tail) offset =
        scanString '\x22' (c.toNat :: codes) 0 tail (offset + byteLength ['\\', letter]) := by
    rw [hc, byteLength, byteLength, hsize]
    exact scanString_letter hread hsize
  unfold escape
  split
  · next hquote => exact hletter '\x22' rfl rfl (by rw [hquote])
  split
  · next hback => exact hletter '\\' rfl rfl (by rw [hback])
  split
  · next hquote hback hplain =>
      have hline : ¬(c = '\n' ∨ c = '\r') := by
        rintro (rfl | rfl) <;> exact absurd hplain (by decide)
      rw [List.singleton_append, scanString, if_neg hquote, if_neg hline, if_neg hback]
      rfl
  split
  · next h => exact hletter '\x08' rfl rfl h
  split
  · next h => exact hletter '\t' rfl rfl h
  split
  · next h => exact hletter '\n' rfl rfl h
  split
  · next h => exact hletter '\x0c' rfl rfl h
  split
  · next h => exact hletter '\r' rfl rfl h
  · next hcontrol _ _ _ _ _ =>
      have hsmall : c.toNat < 32 := by omega
      rw [byteLength_unicode hsmall]
      exact scanString_unicode hsmall

/-! ### Whole strings -/

theorem scanString_encodeChars (cs : List Char) :
    scanString '\x22' codes 0 (encodeChars cs ++ '\x22' :: tail) offset =
      some ((cs.map Char.toNat).reverse ++ codes, ⟨tail, offset + byteLength (encodeChars cs) + 1⟩) := by
  induction cs generalizing codes offset with
  | nil => rfl
  | cons c cs ih =>
      have hcons : encodeChars (c :: cs) = escape c ++ encodeChars cs := by simp [encodeChars]
      rw [hcons, List.append_assoc, scanString_escape, ih, byteLength_append]
      simp [Nat.add_assoc]

theorem joinSurrogates_map_toNat (cs : List Char) : joinSurrogates (cs.map Char.toNat) = some cs := by
  induction cs with
  | nil => rfl
  | cons c cs ih =>
      have hvalid : c.toNat < 0xD800 ∨ 0xDFFF < c.toNat := c.valid.imp id And.left
      have hhigh : ¬(0xD800 ≤ c.toNat ∧ c.toNat ≤ 0xDBFF) := by omega
      have hlow : ¬(0xDC00 ≤ c.toNat ∧ c.toNat ≤ 0xDFFF) := by omega
      rw [List.map_cons, joinSurrogates.eq_def]
      simp only [hhigh, hlow, if_false, ih, Option.map_some, Char.ofNat_toNat]

theorem stringValue_reverse_toNat (cs : List Char) :
    stringValue (cs.map Char.toNat).reverse = some (String.ofList cs) := by
  rw [stringValue, List.reverse_reverse, joinSurrogates_map_toNat]
  rfl

/-- The written form of a text is one string token, which ends at the closing quote and has the text as its
value, whatever follows. -/
theorem tokenAt_encode (s : String) (rest : List Char) (offset : Nat) :
    tokenAt ⟨(encode s).toList ++ rest, offset⟩ =
      (.string (some s), ⟨rest, offset + byteLength (encode s).toList⟩) := by
  have hlength : byteLength (encode s).toList = 1 + byteLength (encodeChars s.toList) + 1 := by
    have htext := toList_encode s []
    rw [List.append_nil] at htext
    rw [htext, byteLength, byteLength_append]
    simp [byteLength]
    rfl
  have hscan : scanString '\x22' [] 0 (encodeChars s.toList ++ '\x22' :: rest) (offset + 1) =
      some ((s.toList.map Char.toNat).reverse,
        ⟨rest, offset + 1 + byteLength (encodeChars s.toList) + 1⟩) :=
    (scanString_encodeChars s.toList).trans (by rw [List.append_nil])
  rw [toList_encode, hlength]
  simp only [tokenAt, true_or, if_true, hscan, stringValue_reverse_toNat, String.ofList_toList, Nat.add_assoc]

end Localization.Source
