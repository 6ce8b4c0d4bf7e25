import Localization.Source.Grammar.Jsx
import Localization.Proofs.Text.Boundary
import Mathlib.Data.List.TakeWhile

/-!
What the text of an element stands for, part by part: white space at its ends stands for itself, whatever
references are written between. Main statement: `decode_surrounded`.
-/

namespace Localization.Source

open Text (isBlank IsTrimmed)

namespace Entity

variable {cs back : List Char}

theorem decode_append_left {front : List Char} (h : '&' ∉ front) (cs : List Char) :
    decode (front ++ cs) = front ++ decode cs := by
  induction front with
  | nil => rfl
  | cons c rest ih =>
      rw [List.mem_cons, not_or] at h
      rw [decode] at ih ⊢
      rw [List.cons_append, decodeFrom, if_neg (Ne.symm h.1), ih h.2, List.cons_append, decode]

/-- A reference ends with its semicolon, so it is the same whatever follows without one. -/
theorem reference?_append (h : ';' ∉ back) (cs : List Char) :
    reference? (cs ++ back) = reference? cs := by
  have htake : (cs ++ back).take 10 = cs.take 10 ++ back.take (10 - cs.length) := List.take_append
  have hback : ∀ c ∈ back.take (10 - cs.length), (c != ';') = true := by
    intro c hc
    rw [bne_iff_ne]
    rintro rfl
    exact h (List.mem_of_mem_take hc)
  simp only [reference?]
  rw [htake, List.takeWhile_append]
  split
  · next hall =>
      have hnone : ((back.take (10 - cs.length)).takeWhile (· != ';')) =
          back.take (10 - cs.length) := List.takeWhile_eq_self_iff.mpr hback
      rw [hnone, hall, if_neg (Nat.lt_irrefl _), if_neg (Nat.lt_irrefl _)]
  · next hsome =>
      have hlength : ((cs.take 10).takeWhile (· != ';')).length < (cs.take 10).length :=
        lt_of_le_of_ne (List.takeWhile_sublist _).length_le hsome
      rw [List.length_append, if_pos (Nat.lt_add_right _ hlength), if_pos hlength]

theorem length_le_of_reference? {n length : Nat} (h : reference? cs = some (n, length)) :
    length ≤ cs.length := by
  simp only [reference?] at h
  split at h
  · next hlength =>
      obtain ⟨point, -, hpair⟩ := Option.map_eq_some_iff.mp h
      obtain ⟨-, rfl⟩ := Prod.mk.inj hpair
      rw [List.length_take] at hlength
      omega
  · contradiction

theorem decodeFrom_append (hstart : '&' ∉ back) (hend : ';' ∉ back) {skip : Nat}
    (hskip : skip ≤ cs.length) : decodeFrom skip (cs ++ back) = decodeFrom skip cs ++ back := by
  induction cs generalizing skip with
  | nil =>
      obtain rfl : skip = 0 := Nat.le_zero.mp hskip
      have hback := decode_append_left hstart []
      rw [List.append_nil] at hback
      rw [List.nil_append, ← decode, hback]
      simp [decode, decodeFrom]
  | cons c rest ih =>
      rw [List.cons_append]
      cases skip with
      | succ k => exact ih (Nat.le_of_succ_le_succ hskip)
      | zero =>
          rw [decodeFrom, decodeFrom, reference?_append hend]
          split
          · cases hreference : reference? rest with
            | none => exact congrArg (c :: ·) (ih (Nat.zero_le _))
            | some found =>
                exact congrArg (Char.ofNat found.1 :: ·) (ih (length_le_of_reference? hreference))
          · exact congrArg (c :: ·) (ih (Nat.zero_le _))

end Entity

namespace Parser

theorem mem_joinLineEnds {c : Char} {cs : List Char} (h : c ∈ joinLineEnds cs) :
    c ∈ cs ∨ c = '\n' := by
  fun_induction joinLineEnds cs with
  | case1 => exact .inl h
  | case2 rest ih =>
      rcases List.mem_cons.mp h with rfl | hrest
      · exact .inr rfl
      · rcases ih hrest with hmem | hfeed
        · exact .inl (by simp [hmem])
        · exact .inr hfeed
  | case3 d rest _ ih =>
      rcases List.mem_cons.mp h with rfl | hrest
      · exact .inl List.mem_cons_self
      · rcases ih hrest with hmem | hfeed
        · exact .inl (List.mem_cons_of_mem d hmem)
        · exact .inr hfeed

theorem isBlank_of_mem_joinLineEnds {cs : List Char} (h : ∀ c ∈ cs, isBlank c = true) :
    ∀ c ∈ joinLineEnds cs, isBlank c = true := by
  intro c hc
  rcases mem_joinLineEnds hc with hmem | rfl
  · exact h c hmem
  · rfl

theorem joinLineEnds_cons {c : Char} {cs : List Char} (h : c = '\r' → cs.head? ≠ some '\n') :
    joinLineEnds (c :: cs) = c :: joinLineEnds cs := by
  rw [joinLineEnds]
  rintro rest rfl rfl
  exact h rfl rfl

/-- A line end of two characters is not cut where a text is divided between other characters. -/
theorem joinLineEnds_append {cs ds : List Char}
    (h : cs.getLast? = some '\r' → ds.head? ≠ some '\n') :
    joinLineEnds (cs ++ ds) = joinLineEnds cs ++ joinLineEnds ds := by
  fun_induction joinLineEnds cs with
  | case1 => rfl
  | case2 rest ih =>
      refine congrArg ('\n' :: ·) (ih fun hlast => h ?_)
      rw [List.getLast?_cons_cons, List.getLast?_cons, hlast, Option.getD_some]
  | case3 c rest hc ih =>
      have hrest : rest.getLast? = some '\r' → ds.head? ≠ some '\n' := by
        intro hlast
        apply h
        rw [List.getLast?_cons, hlast, Option.getD_some]
      rw [List.cons_append, joinLineEnds_cons, ih hrest, List.cons_append]
      rintro rfl
      cases rest with
      | nil => exact h rfl
      | cons d more =>
          intro hhead
          exact hc more rfl (by rw [Option.some.inj hhead])

end Parser

variable {front text back : List Char}

theorem notMem_of_blank {c : Char} {cs : List Char} (h : ∀ d ∈ cs, isBlank d = true)
    (hc : isBlank c = false) : c ∉ cs := by
  intro hmem
  rw [h c hmem] at hc
  contradiction

/-- A text with blanks around it stands for what it stands for by itself, with the same blanks. -/
theorem Entity.decode_surrounded (htext : IsTrimmed text) (hfront : ∀ c ∈ front, isBlank c = true)
    (hback : ∀ c ∈ back, isBlank c = true) :
    decode (Parser.joinLineEnds (front ++ text ++ back)) =
      Parser.joinLineEnds front ++ decode (Parser.joinLineEnds text) ++ Parser.joinLineEnds back := by
  have hbegin : front.getLast? = some '\r' → (text ++ back).head? ≠ some '\n' := by
    intro _ hhead
    obtain ⟨c, rest, rfl⟩ := List.exists_cons_of_ne_nil htext.nonempty
    exact absurd (htext.head _ hhead) (by decide)
  have hend : text.getLast? = some '\r' → back.head? ≠ some '\n' := by
    intro hlast
    exact absurd (htext.last _ hlast) (by decide)
  have hamp : '&' ∉ Parser.joinLineEnds front :=
    notMem_of_blank (Parser.isBlank_of_mem_joinLineEnds hfront) (by decide)
  have hbehind := Parser.isBlank_of_mem_joinLineEnds hback
  rw [List.append_assoc, Parser.joinLineEnds_append hbegin, Parser.joinLineEnds_append hend,
    decode_append_left hamp, decode,
    decodeFrom_append (notMem_of_blank hbehind (by decide)) (notMem_of_blank hbehind (by decide))
      (Nat.zero_le _), ← decode, List.append_assoc]

end Localization.Source
