import Localization.Proofs.Component.Written
import Localization.Proofs.Edit.Piece
import Localization.Proofs.Source.Opening
import Localization.Proofs.Text.Boundary

/-!
What is written for a wrapped source is no JSON object. The edits do not write the beginning of one, and a
source that has it already is a single string in a block, which has no components. Main statement:
`wrapSource?_ne_object`.
-/

namespace Localization

open Source (Node Gap)
open Json (IsPlain stringState stringState_append)
open Json.Reader (IsBlank OpensObject)
open Text (byteLength)

variable {o : WrapOptions} {source : List Char} {module : Node}

theorem marks_cons {c : Char} (hc : ¬ IsBlank c) (rest : List Char) : marks (c :: rest) = c :: marks rest :=
  List.filter_cons_of_pos (by simp [hc])

/-- The first quote of an object stands in front of code that belongs to the object. -/
inductive OpensBefore (code : List Char) : List Char → Prop where
  | mk {outer inner inside body colon rest : List Char} (houter : ∀ b ∈ outer, IsBlank b)
      (hinner : ∀ b ∈ inner, IsBlank b) (hbody : stringState false body = some false)
      (hcolon : ∀ b ∈ colon, IsBlank b)
      (hrest : body ++ '\x22' :: (colon ++ ':' :: rest) = inside ++ code) :
      OpensBefore code (outer ++ '\x7b' :: (inner ++ '\x22' :: inside))

theorem BeginsCode.not_object {code front rest : List Char} {c : Char} (h : BeginsCode code)
    (hcode : code = front ++ c :: rest) (hc : c ∈ ['\x7d', '\x22', ':'])
    (hfront : marks front = [] ∨ marks front = ['\x7b']) : False := by
  obtain ⟨d, more, hd, hmarks⟩ := h
  have hmark : ¬ IsBlank c := by
    simp only [List.mem_cons, List.not_mem_nil, or_false] at hc
    rcases hc with rfl | rfl | rfl <;> decide
  rw [hcode, marks_append, marks_cons hmark] at hmarks
  rcases hfront with hfront | hfront
  · rw [hfront, List.nil_append] at hmarks
    rcases hmarks with hmarks | hmarks
    · obtain ⟨rfl, -⟩ := List.cons.inj hmarks
      exact hd (List.mem_cons_of_mem _ hc)
    · obtain ⟨rfl, -⟩ := List.cons.inj hmarks
      simp at hc
  · rw [hfront, List.singleton_append] at hmarks
    rcases hmarks with hmarks | hmarks
    · obtain ⟨rfl, -⟩ := List.cons.inj hmarks
      exact hd List.mem_cons_self
    · obtain ⟨rfl, -⟩ := List.cons.inj (List.cons.inj hmarks).2
      exact hd (List.mem_cons_of_mem _ hc)

theorem BeginsCode.not_mark {code rest : List Char} {c : Char} (h : BeginsCode code)
    (hcode : code = c :: rest) (hc : c ∈ ['\x7d', '\x22', ':']) : False :=
  h.not_object (hcode.trans (List.nil_append (c :: rest)).symm) hc (.inl rfl)

theorem opensBefore_of_opensObject {kept code : List Char} (hcode : BeginsCode code)
    (h : OpensObject (kept ++ code)) : OpensBefore code kept := by
  generalize htext : kept ++ code = text at h
  cases h with
  | @empty outer inner behind houter hinner hbehind =>
      exfalso
      obtain ⟨c, rest, hc, hmarks⟩ := hcode
      have hmem : c ∈ marks code := by
        rcases hmarks with hmarks | hmarks
        · rw [hmarks]
          exact List.mem_cons_self
        · rw [hmarks]
          exact List.mem_cons_of_mem _ List.mem_cons_self
      have hall : marks (kept ++ code) = ['\x7b', '\x7d'] := by
        rw [htext, marks_append, marks_of_blank houter, marks_cons (by decide), marks_append,
          marks_of_blank hinner, marks_cons (by decide), marks_of_blank hbehind]
        rfl
      have hbrace : c ∈ ['\x7b', '\x7d'] := by
        rw [← hall, marks_append]
        exact List.mem_append_right _ hmem
      exact hc (List.subset_append_left ['\x7b', '\x7d'] ['\x22', ':'] hbrace)
  | @member outer inner body colon rest houter hinner hbody hcolon =>
      have hsplit : kept ++ code = (outer ++ '\x7b' :: inner) ++
          '\x22' :: (body ++ '\x22' :: (colon ++ ':' :: rest)) := by
        simpa using htext
      rcases List.append_eq_append_iff.mp hsplit with ⟨front, hfront, hcodeFront⟩ | ⟨inside, hkept, hrest⟩
      · exfalso
        have hmarks : marks kept ++ marks front = ['\x7b'] := by
          rw [← marks_append, ← hfront, marks_append, marks_of_blank houter, marks_cons (by decide),
            marks_of_blank hinner]
          rfl
        refine hcode.not_object hcodeFront (by decide) ?_
        rcases List.append_eq_singleton_iff.mp hmarks with ⟨-, hbrace⟩ | ⟨-, hnone⟩
        · exact .inr hbrace
        · exact .inl hnone
      · cases inside with
        | nil => exact (hcode.not_mark hrest.symm (by decide)).elim
        | cons quote inside =>
            obtain ⟨rfl, hinside⟩ := List.cons.inj hrest
            have hkept : kept = outer ++ '\x7b' :: (inner ++ '\x22' :: inside) := by
              rw [hkept, List.append_assoc, List.cons_append]
            rw [hkept]
            exact .mk houter hinner hbody hcolon hinside

/-! ## Strings that are not closed -/

/-- Edits in a gap in front of a line end leave the string open that the gap is behind. -/
theorem exists_plain_of_applyFrom {g : Gap} {size at_ : Nat} {c : Char} {rest output : List Char}
    {edits : List Edit} (hmisses : ¬g.Misses at_) (hc : c.toNat < 0x20)
    (hedits : ∀ e ∈ edits, e.Clears g)
    (h : Edit.applyFrom size at_ (c :: rest) edits = .ok output) :
    ∃ plain d more, output = plain ++ d :: more ∧ (∀ p ∈ plain, IsPlain p) ∧ d.toNat < 0x20 := by
  induction edits generalizing output with
  | nil => exact ⟨[], c, rest, (Except.ok.inj h).symm, by simp, hc⟩
  | cons e edits ih =>
      obtain ⟨kept, replaced, after, tail, hrest, hstart, hstop, htail, rfl⟩ :=
        Edit.exists_cut_of_applyFrom h
      cases kept with
      | cons d kept =>
          obtain ⟨rfl, -⟩ := List.cons.inj hrest
          exact ⟨[], c, _, rfl, by simp, hc⟩
      | nil =>
          have hat : e.start = at_ := hstart
          obtain houtside | ⟨-, hinsertion, hstays⟩ := hedits e List.mem_cons_self
          · exact absurd (hat ▸ houtside) hmisses
          · have hreplaced : replaced = [] := Text.byteLength_eq_zero.mp (by omega)
            subst hreplaced
            have hstop' : e.stop = at_ := hinsertion.symm.trans hat
            rw [List.nil_append, List.nil_append] at hrest
            rw [hstop', ← hrest] at htail
            obtain ⟨plain, d, more, rfl, hplain, hd⟩ :=
              ih (fun f hf => hedits f (List.mem_cons_of_mem e hf)) htail
            rcases hstays with hstays | ⟨first, text, htext, hfirst⟩
            · refine ⟨e.text.toList ++ plain, d, more, by simp, ?_, hd⟩
              intro p hp
              rcases List.mem_append.mp hp with hp | hp
              · exact hstays p hp
              · exact hplain p hp
            · exact ⟨[], first, _, by rw [htext]; rfl, by simp, hfirst⟩

/-- A string does not go on behind a control character. -/
theorem not_string_of_control {plain more body behind : List Char} {d : Char}
    (hplain : ∀ p ∈ plain, IsPlain p) (hd : d.toNat < 0x20)
    (hbody : stringState false body = some false)
    (h : body ++ '\x22' :: behind = plain ++ d :: more) : False := by
  rcases List.append_eq_append_iff.mp h with ⟨z, hz, hrest⟩ | ⟨z, hz, hrest⟩
  · cases z with
    | nil =>
        obtain ⟨rfl, -⟩ := List.cons.inj hrest
        exact absurd hd (by decide)
    | cons quote z =>
        obtain ⟨rfl, -⟩ := List.cons.inj hrest
        have hquote : IsPlain '\x22' := hplain _ (by rw [hz]; simp)
        exact hquote.2.1 rfl
  · cases z with
    | nil =>
        obtain ⟨rfl, -⟩ := List.cons.inj hrest
        exact absurd hd (by decide)
    | cons control z =>
        obtain ⟨rfl, -⟩ := List.cons.inj hrest
        rw [hz, stringState_append, Json.stringState_of_plain hplain, Option.bind_some, stringState,
          if_pos hd] at hbody
        contradiction

/-! ## Sources -/

theorem components_of_isStringBlock (h : module.IsStringBlock) :
    (wrapModule o source module).components = [] := by
  obtain ⟨whole, outer, inner, value, span, rfl⟩ := h
  rfl

theorem exists_edit_of_components (h : (wrapModule o source module).components ≠ []) :
    ∃ e, e ∈ (withImport o source module (wrapModule o source module)).2 := by
  rw [components_wrapModule] at h
  obtain ⟨component, hcomponent⟩ := List.exists_mem_of_ne_nil _ h
  obtain ⟨f, hf, -⟩ := List.mem_map.mp hcomponent
  have hliterals : f.candidate.literals source o.classifier ≠ [] := by
    simpa [Found.changes] using (List.mem_filter.mp hf).2
  obtain ⟨l, hl⟩ := List.exists_mem_of_ne_nil _ hliterals
  have hedit : replacementEdit l (o.generator.keyFor l.text OrderedMap.empty).1 ∈
      (wrapModule o source module).edits := by
    rw [edits_wrapModule]
    exact List.mem_flatMap.mpr ⟨f, hf, List.mem_append_left _ (List.mem_map_of_mem hl)⟩
  exact ⟨_, subset_withImport o source module _ hedit⟩

/-- A colon behind a string is no part of a statement. -/
theorem isStop_behind_name {body colon behind : List Char} {offset : Nat} {codes : List Nat}
    {place : Source.Place} (hbody : stringState false body = some false)
    (hcolon : ∀ b ∈ colon, IsBlank b)
    (hscan : Source.scanString '\x22' [] 0 (body ++ '\x22' :: (colon ++ ':' :: behind)) offset =
      some (codes, place)) : (Source.nextToken false place).token.kind.isStop = true := by
  obtain rfl := Source.scanString_of_quote hbody hscan
  obtain ⟨newline, hnext⟩ := Source.nextToken_blanks hcolon behind (.inr (.inr rfl)) false
    (offset + byteLength body + 1)
  rw [hnext, Source.tokenAt_colon]
  rfl

/-- A string that is not closed in front of an edit ends with its line there. -/
theorem exists_lineEnd_of_open {inside behind : List Char} {state : Bool} {lo at_ : Nat}
    {codes : List Nat} {place : Source.Place} (hinside : stringState false inside = some state)
    (hscan : Source.scanString '\x22' [] 0 (inside ++ behind) (lo + 1) = some (codes, place))
    (hgoes : (Source.nextToken false place).token.kind.isStop ≠ true)
    (hat : lo + 1 + byteLength inside = at_) (hplace : place.offset ≤ at_) :
    place.offset = at_ ∧ state = false ∧ at_ < (Source.stringGap lo place).next ∧
      ∃ c rest, behind = c :: rest ∧ c.toNat < 0x20 := by
  obtain ⟨hle, hend⟩ := Source.scanString_of_open hinside hscan
  have hoffset : place.offset = at_ := by omega
  obtain ⟨hrest, hcases⟩ := hend (hoffset.trans hat.symm)
  rcases hcases with hnone | ⟨hstate, c, rest, hbehind, hline⟩
  · have hstop : (Source.nextToken false place).token.kind.isStop = true := by
      obtain ⟨text, offset⟩ := place
      obtain rfl : text = [] := hrest.trans hnone
      rfl
    exact absurd hstop hgoes
  · refine ⟨hoffset, hstate, ?_, c, rest, hbehind, ?_⟩
    · obtain ⟨text, offset⟩ := place
      obtain rfl : text = c :: rest := hrest.trans hbehind
      have hnext : offset + 1 ≤ (Source.skipBlanks .outside true rest (offset + 1)).place.offset :=
        Source.le_skipBlanks .outside true rest (offset + 1)
      have hskipped : (Source.stringGap lo ⟨c :: rest, offset⟩).next =
          (Source.skipBlanks .outside true rest (offset + 1)).place.offset := by
        rcases hline with rfl | rfl
        · rfl
        · rfl
      rw [hskipped, ← hoffset]
      exact hnext
    · rcases hline with rfl | rfl
      · decide
      · decide

/-- A string in front of an edit that is not closed there is none of an object: what the edits make goes
on with its line end. -/
theorem not_string_of_open {size lo : Nat} {e : Edit} {edits : List Edit}
    {inside behind code z rest : List Char} {state : Bool} {codes : List Nat} {place : Source.Place}
    (hinside : stringState false inside = some state) (hz : stringState state z = some false)
    (hscan : Source.scanString '\x22' [] 0 (inside ++ behind) (lo + 1) = some (codes, place))
    (hgoes : (Source.nextToken false place).token.kind.isStop ≠ true)
    (hclears : ∀ f ∈ e :: edits, f.Clears (Source.stringGap lo place))
    (hat : lo + 1 + byteLength inside = e.start)
    (happly : Edit.applyFrom size e.start behind (e :: edits) = .ok code) :
    code ≠ z ++ '\x22' :: rest := by
  have hends : place.offset ≤ e.start := by
    have hlo : ¬ e.start ≤ lo := by omega
    obtain (hfront | hnext) | ⟨hfront | hbehind, -⟩ := hclears e List.mem_cons_self
    · exact absurd hfront hlo
    · exact Nat.le_trans (Source.le_skipBlanks ..) hnext
    · exact absurd hfront hlo
    · exact hbehind
  obtain ⟨hoffset, rfl, hwide, c, line, rfl, hcontrol⟩ :=
    exists_lineEnd_of_open hinside hscan hgoes hat hends
  rw [← hoffset] at happly hwide
  have hmisses : ¬(Source.stringGap lo place).Misses place.offset := by
    rintro (hfront | hbehind)
    · exact absurd (show place.offset ≤ lo from hfront) (by omega)
    · exact absurd hwide (Nat.not_lt.mpr hbehind)
  obtain ⟨plain, d, more, rfl, hplain, hd⟩ := exists_plain_of_applyFrom hmisses hcontrol hclears happly
  exact fun h => not_string_of_control hplain hd hz h.symm

theorem behindFirstLine_textStart {outer rest : List Char} (houter : ∀ b ∈ outer, IsBlank b) :
    behindFirstLine (Source.textStart (outer ++ '\x7b' :: rest)) = 0 := by
  cases outer with
  | nil => rfl
  | cons b outer => rcases houter b List.mem_cons_self with rfl | rfl | rfl | rfl <;> rfl

/-- Edits do not make an object of a source of which the part in front of them begins as one does. -/
theorem not_opensBefore {jsx : Bool} {size : Nat} {e : Edit} {edits : List Edit}
    {kept behind code : List Char}
    (hparse : Source.parseModule jsx (kept ++ behind) = .ok module) (hblock : ¬ module.IsStringBlock)
    (hedits : ∀ f ∈ e :: edits, WrittenEdit o (kept ++ behind) module f)
    (hstart : e.start = byteLength kept) (hcode : BeginsCode code)
    (happly : Edit.applyFrom size e.start behind (e :: edits) = .ok code) :
    ¬ OpensBefore code kept := by
  intro hbefore
  cases hbefore with
  | @mk outer inner inside body colon rest houter hinner hbody hcolon hrest =>
      have hwhole : outer ++ '\x7b' :: (inner ++ '\x22' :: inside) ++ behind =
          outer ++ '\x7b' :: (inner ++ '\x22' :: (inside ++ behind)) := by simp
      rw [hwhole] at hparse hedits
      obtain ⟨codes, place, hscan, hclear, hstopped⟩ := Source.clear_of_parseModule houter hinner hparse
      have hgoes : (Source.nextToken false place).token.kind.isStop ≠ true := fun h => hblock (hstopped h)
      rcases List.append_eq_append_iff.mp hrest with ⟨z, hinside, hz⟩ | ⟨z, hbodyz, hcodez⟩
      · -- The first string is closed in front of the edits, and no colon may follow.
        cases z with
        | nil => exact hcode.not_mark hz.symm (by decide)
        | cons quote z =>
            obtain ⟨rfl, hz'⟩ := List.cons.inj hz
            rcases List.append_eq_append_iff.mp hz' with ⟨y, hy, hbehind⟩ | ⟨y, hy, hbehind⟩
            · cases y with
              | nil => exact hcode.not_mark hbehind.symm (by decide)
              | cons mark y =>
                  obtain ⟨rfl, -⟩ := List.cons.inj hbehind
                  have hname : inside ++ behind = body ++ '\x22' :: (colon ++ ':' :: (y ++ behind)) := by
                    rw [hinside, hy]
                    simp
                  exact hgoes (isStop_behind_name hbody hcolon (hname ▸ hscan))
            · refine hcode.not_object hbehind (by decide) (.inl (marks_of_blank fun b hb => hcolon b ?_))
              rw [hy]
              exact List.mem_append_right _ hb
      · rw [hbodyz, stringState_append] at hbody
        obtain ⟨state, hinside, hz⟩ := Option.bind_eq_some_iff.mp hbody
        have hat : byteLength outer + 1 + byteLength inner + 1 + byteLength inside = e.start := by
          have hbrace : Char.utf8Size '\x7b' = 1 := rfl
          have hquote : Char.utf8Size '\x22' = 1 := rfl
          rw [hstart]
          simp only [Text.byteLength_append, byteLength, hbrace, hquote]
          omega
        refine not_string_of_open hinside hz hscan hgoes (fun f hf => ?_) hat happly hcodez
        refine (hedits f hf).clears hclear ?_
        rw [behindFirstLine_textStart houter]
        exact Nat.zero_le _

/-- What is written for a wrapped source is no JSON object. -/
theorem wrapSource?_ne_object {path : String} {w : WrappedSource}
    (h : wrapSource? o path source = .ok (some w)) (members : List (String × Json)) :
    Json.parse? w.output ≠ .ok (.object members) := by
  intro hobject
  obtain ⟨module, hparse, hcomponents, hchanges, -, houtput⟩ := wrapSource?_eq_some h
  rw [hchanges] at houtput
  have hedits : ∀ e ∈ Edit.sort (withImport o source module (wrapModule o source module)).2,
      WrittenEdit o source module e := by
    intro e he
    exact writtenEdit_of_mem_withImport (Edit.mem_sort.mp he)
  have hsome := (exists_edit_of_components hcomponents).imp fun e he => Edit.mem_sort.mpr he
  unfold Edit.applyAll at houtput
  generalize Edit.sort (withImport o source module (wrapModule o source module)).2 = edits at *
  obtain ⟨e, rest, rfl⟩ : ∃ e rest, edits = e :: rest := by
    obtain ⟨e, he⟩ := hsome
    exact List.exists_cons_of_ne_nil (List.ne_nil_of_mem he)
  obtain ⟨kept, behind, code, rfl, hcut, hstart, htext, happly⟩ := Edit.exists_front_of_applyFrom houtput
  have hcode : BeginsCode code := by
    obtain ⟨tail, rfl⟩ := htext
    exact (hedits e List.mem_cons_self).beginsCode.append tail
  have hopens := Json.opensObject_of_parse? hobject
  rw [hcut] at hopens
  refine not_opensBefore hparse (mt components_of_isStringBlock hcomponents) hedits ?_ hcode happly
    (opensBefore_of_opensObject hcode hopens)
  rw [hstart, Nat.zero_add]

end Localization
