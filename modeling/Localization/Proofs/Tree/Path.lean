import Localization.Tree.Workspace
import Mathlib.Data.List.Basic

/-!
Paths as texts: how their pieces, parts and steps change when a path is put behind another one.
-/

namespace Localization.Path

variable {path name : String}

theorem splitFrom_append_slash (piece first rest : List Char) :
    splitFrom piece (first ++ '/' :: rest) = splitFrom piece first ++ splitFrom [] rest := by
  induction first generalizing piece with
  | nil => simp [splitFrom]
  | cons c first ih =>
      rw [List.cons_append, splitFrom, splitFrom]
      split
      · rw [ih, List.cons_append]
      · exact ih (c :: piece)

theorem splitFrom_of_notMem {cs : List Char} (h : '/' ∉ cs) (piece : List Char) :
    splitFrom piece cs = [piece.reverse ++ cs] := by
  induction cs generalizing piece with
  | nil => simp [splitFrom]
  | cons c rest ih =>
      obtain ⟨hc, hrest⟩ := not_or.mp (mt List.mem_cons.mpr h)
      rw [splitFrom, if_neg (Ne.symm hc), ih hrest]
      simp

theorem noSlash_of_mem_splitFrom {piece cs found : List Char} (hpiece : '/' ∉ piece)
    (h : found ∈ splitFrom piece cs) : '/' ∉ found := by
  induction cs generalizing piece with
  | nil =>
      rw [splitFrom, List.mem_singleton] at h
      simpa [h] using hpiece
  | cons c rest ih =>
      rw [splitFrom] at h
      split at h
      · rcases List.mem_cons.mp h with rfl | hrest
        · simpa using hpiece
        · exact ih (List.not_mem_nil) hrest
      · next hc => exact ih (by simp [Ne.symm hc, hpiece]) h

theorem noSlash_of_mem_pieces {piece : String} (h : piece ∈ pieces path) : '/' ∉ piece.toList := by
  obtain ⟨cs, hcs, rfl⟩ := List.mem_map.mp h
  rw [String.toList_ofList]
  exact noSlash_of_mem_splitFrom List.not_mem_nil hcs

/-- The pieces of two paths with a slash between them. -/
theorem pieces_append_slash (path rest : String) :
    pieces (path ++ "/" ++ rest) = pieces path ++ pieces rest := by
  simp [pieces, splitFrom_append_slash]

theorem pieces_of_notMem (h : '/' ∉ name.toList) : pieces name = [name] := by
  simp [pieces, splitFrom_of_notMem h]

theorem isAbsolute_of_isPrefix {whole : String} (hne : path ≠ "") (h : path.toList <+: whole.toList) :
    isAbsolute path = isAbsolute whole := by
  obtain ⟨rest, hrest⟩ := h
  rw [isAbsolute, isAbsolute, ← hrest]
  cases hcs : path.toList with
  | nil => exact absurd (String.toList_eq_nil_iff.mp hcs) hne
  | cons c cs => rfl

/-- A path is a single name, or a name behind a slash. -/
theorem exists_last (path : String) : '/' ∉ path.toList ∨
    ∃ above name, path = above ++ "/" ++ name ∧ '/' ∉ name.toList := by
  by_cases h : '/' ∈ path.toList
  · obtain ⟨rest, above, hpath, hrest⟩ := List.eq_append_cons_of_mem (List.mem_reverse.mpr h)
    refine .inr ⟨String.ofList above.reverse, String.ofList rest.reverse, ?_, by simpa using hrest⟩
    rw [List.reverse_eq_iff] at hpath
    rw [← String.toList_inj, hpath]
    simp
  · exact .inl h

/-- What stands in front of the names of a path. -/
def lead (path : String) : List Part :=
  if isAbsolute path then [.root]
  else if (pieces path).head? == some "." then [.current]
  else []

theorem parts_eq (path : String) : parts path = lead path ++ (pieces path).filterMap partOf? := by
  rw [parts, lead]
  split
  · rfl
  split <;> rfl

theorem partOf?_of_name (hne : name ≠ "") (hcurrent : name ≠ ".") (hparent : name ≠ "..") :
    partOf? name = some (.name name) := by
  simp [partOf?, hne, hcurrent, hparent]

theorem pieces_ne_nil (path : String) : pieces path ≠ [] := by
  rcases exists_last path with hsingle | ⟨above, last, rfl, hlast⟩
  · rw [pieces_of_notMem hsingle]
    exact List.cons_ne_nil _ _
  · rw [pieces_append_slash, pieces_of_notMem hlast]
    simp

/-! ## Joined names -/

/-- What a name has to be to be one piece of a path. -/
structure IsPiece (name : String) : Prop where
  ne_empty : name ≠ ""
  noSlash : '/' ∉ name.toList

theorem isAbsolute_of_isPiece (h : IsPiece name) : isAbsolute name = false := by
  cases hcs : name.toList with
  | nil => simp [isAbsolute, hcs]
  | cons c rest =>
      have hc : c ≠ '/' := fun hc => h.noSlash (by simp [hcs, hc])
      simp [isAbsolute, hcs, hc]

theorem pieces_intercalate {names : List String} (hne : names ≠ [])
    (h : ∀ n ∈ names, IsPiece n) : pieces ("/".intercalate names) = names := by
  induction names with
  | nil => contradiction
  | cons first rest ih =>
      have hfirst := (h first List.mem_cons_self).noSlash
      cases rest with
      | nil => rw [String.intercalate_singleton, pieces_of_notMem hfirst]
      | cons second rest =>
          rw [String.intercalate_cons_cons, pieces_append_slash, pieces_of_notMem hfirst,
            ih (List.cons_ne_nil _ _) fun n hn => h n (List.mem_cons_of_mem first hn)]
          rfl

theorem getLast?_intercalate {names : List String} (h : ∀ n ∈ names, IsPiece n) :
    ("/".intercalate names).toList.getLast? ≠ some '/' := by
  rcases List.eq_nil_or_concat names with rfl | ⟨init, last, rfl⟩
  · simp
  · have hlast : IsPiece last := h last (by simp)
    have hend : ∀ out : String, (out ++ last).toList.getLast? ≠ some '/' := by
      intro out hout
      rw [String.toList_append, List.getLast?_append_of_ne_nil _ (by simpa using hlast.ne_empty)] at hout
      exact hlast.noSlash (List.mem_of_getLast? hout)
    rw [List.concat_eq_append]
    cases init with
    | nil => simpa using hend ""
    | cons first init =>
        rw [String.intercalate_append_of_ne_nil (List.cons_ne_nil _ _) (List.cons_ne_nil _ _),
          String.intercalate_singleton]
        exact hend _

theorem intercalate_ne_empty {names : List String} (hne : names ≠ []) (h : ∀ n ∈ names, IsPiece n) :
    "/".intercalate names ≠ "" := by
  intro hempty
  have hpieces := pieces_intercalate hne h
  rw [hempty] at hpieces
  have hpiece := h "" (by rw [← hpieces]; decide)
  exact hpiece.ne_empty rfl

theorem isAbsolute_intercalate {names : List String} (h : ∀ n ∈ names, IsPiece n) :
    isAbsolute ("/".intercalate names) = false := by
  cases names with
  | nil => rfl
  | cons first rest =>
      have hfirst := h first List.mem_cons_self
      have hprefix : first.toList <+: ("/".intercalate (first :: rest)).toList := by
        cases rest with
        | nil => simp
        | cons second rest =>
            rw [String.intercalate_cons_cons, String.append_assoc, String.toList_append]
            exact List.prefix_append _ _
      rw [← isAbsolute_of_isPrefix hfirst.ne_empty hprefix]
      exact isAbsolute_of_isPiece hfirst

theorem mem_toList_intercalate {names : List String} {c : Char}
    (h : c ∈ ("/".intercalate names).toList) : c = '/' ∨ ∃ n ∈ names, c ∈ n.toList := by
  induction names with
  | nil => simp at h
  | cons first rest ih =>
      cases rest with
      | nil => exact .inr ⟨first, List.mem_cons_self, by simpa using h⟩
      | cons second rest =>
          rw [String.intercalate_cons_cons, String.toList_append, String.toList_append] at h
          rcases List.mem_append.mp h with h | h
          · rcases List.mem_append.mp h with h | h
            · exact .inr ⟨first, List.mem_cons_self, h⟩
            · exact .inl (by simpa using h)
          · exact (ih h).imp_right fun ⟨n, hn, hc⟩ => ⟨n, List.mem_cons_of_mem first hn, hc⟩

/-- A name is put behind joined names with a slash, unless it is the first one. -/
theorem join_intercalate {names : List String} (h : ∀ n ∈ names, IsPiece n) (hname : IsPiece name) :
    join ("/".intercalate names) name = "/".intercalate (names ++ [name]) := by
  rw [join, isAbsolute_of_isPiece hname, if_neg Bool.false_ne_true]
  cases names with
  | nil => simp
  | cons first rest =>
      have hne := intercalate_ne_empty (List.cons_ne_nil first rest) h
      have hlast := getLast?_intercalate h
      rw [if_neg (by simpa [hne] using hlast), String.intercalate_append_of_ne_nil
        (List.cons_ne_nil _ _) (List.cons_ne_nil _ _), String.intercalate_singleton]

theorem foldl_join {α : Type} (text : α → String) {items : List α}
    (h : ∀ a ∈ items, IsPiece (text a)) :
    items.foldl (fun path a => join path (text a)) "" = "/".intercalate (items.map text) := by
  have hall : ∀ done : List String, (∀ n ∈ done, IsPiece n) →
      items.foldl (fun path a => join path (text a)) ("/".intercalate done) =
        "/".intercalate (done ++ items.map text) := by
    induction items with
    | nil => simp
    | cons a rest ih =>
        intro done hdone
        have ha := h a List.mem_cons_self
        rw [List.foldl_cons, join_intercalate hdone ha, ih fun b hb => h b (List.mem_cons_of_mem a hb)]
        · simp
        · intro n hn
          rcases List.mem_append.mp hn with hn | hn
          · exact hdone n hn
          · rw [List.mem_singleton.mp hn]
            exact ha
  exact hall [] nofun

theorem exists_above_of_slash (h : path.toList.getLast? = some '/') : ∃ above, path = above ++ "/" := by
  obtain ⟨above, habove⟩ := List.getLast?_eq_some_iff.mp h
  refine ⟨String.ofList above, ?_⟩
  rw [← String.toList_inj, habove]
  simp

/-- At most a slash stands between a path and a relative one behind it. -/
theorem exists_between (path : String) (hname : isAbsolute name = false) :
    ∃ between, join path name = path ++ between ++ name ∧ (between = "" ∨ between = "/") := by
  rw [join, hname, if_neg Bool.false_ne_true]
  split
  · exact ⟨"", by simp, .inl rfl⟩
  · exact ⟨"/", rfl, .inr rfl⟩

/-- What stands in front does not depend on what is put behind. -/
theorem lead_append (hne : path ≠ "") (rest : String) : lead (path ++ "/" ++ rest) = lead path := by
  have habsolute : isAbsolute (path ++ "/" ++ rest) = isAbsolute path :=
    (isAbsolute_of_isPrefix hne (by simp)).symm
  have hhead : (pieces (path ++ "/" ++ rest)).head? = (pieces path).head? := by
    obtain ⟨first, more, hpieces⟩ := List.exists_cons_of_ne_nil (pieces_ne_nil path)
    rw [pieces_append_slash, hpieces]
    rfl
  rw [lead, lead, habsolute, hhead]

/-- The parts of a relative path behind another one. -/
theorem parts_join (hne : path ≠ "") (hname : isAbsolute name = false) :
    parts (join path name) = parts path ++ (pieces name).filterMap partOf? := by
  rw [join, hname, if_neg Bool.false_ne_true]
  split
  · next hslash =>
      obtain ⟨above, rfl⟩ := exists_above_of_slash (by simpa [hne] using hslash)
      have hlead : lead (above ++ "/" ++ name) = lead (above ++ "/") := by
        by_cases habove : above = ""
        · subst habove
          simp [lead, isAbsolute]
        · have hempty := lead_append habove ""
          rw [String.append_empty] at hempty
          rw [lead_append habove, hempty]
      have hpieces := pieces_append_slash above ""
      rw [String.append_empty] at hpieces
      rw [parts_eq, parts_eq, hlead, hpieces, pieces_append_slash]
      simp [pieces, splitFrom, partOf?]
  · rw [parts_eq, parts_eq, lead_append hne, pieces_append_slash, List.filterMap_append,
      List.append_assoc]

/-- Single dots are not written. -/
theorem render_eq_intercalate {ps : List Part}
    (h : ∀ part ∈ ps, part ≠ .root ∧ IsPiece part.text) :
    render ps = "/".intercalate ((ps.filter (· ≠ .current)).map Part.text) := by
  have hrender : render ps = (ps.filter (· ≠ .current)).foldl (fun path part => join path part.text) "" := by
    rw [render]
    generalize "" = out
    induction ps generalizing out with
    | nil => rfl
    | cons part rest ih =>
        obtain ⟨hroot, hpart⟩ := h part List.mem_cons_self
        rw [List.foldl_cons, ih fun q hq => h q (List.mem_cons_of_mem part hq)]
        cases part with
        | root => contradiction
        | current => simp [render.append]
        | parent => simp [render.append, join, isAbsolute_of_isPiece hpart]
        | name text => simp [render.append, join, isAbsolute_of_isPiece hpart]
  rw [hrender]
  exact foldl_join Part.text fun part hpart => (h part (List.mem_filter.mp hpart).1).2

theorem relativeParts?_append (base rest : List Part) : relativeParts? base (base ++ rest) = some rest := by
  induction base with
  | nil => simp [relativeParts?]
  | cons part base ih => simpa [relativeParts?] using ih

/-- What is true of the parts of a relative path. -/
structure IsInside (part : Part) : Prop where
  ne_root : part ≠ .root
  isPiece : IsPiece part.text
  again : partOf? part.text = if part = .current then none else some part

theorem isInside_of_mem_parts (hrelative : isAbsolute path = false) {part : Part} (h : part ∈ parts path) : IsInside part := by
  rw [parts_eq, lead, hrelative, if_neg Bool.false_ne_true] at h
  rcases List.mem_append.mp h with hlead | hrest
  · have hcurrent : part = .current := by
      split at hlead
      · exact List.mem_singleton.mp hlead
      · simp at hlead
    subst hcurrent
    exact ⟨nofun, ⟨by simp [Part.text], by simp [Part.text]⟩, by simp [partOf?, Part.text]⟩
  · obtain ⟨piece, hpiece, hpart⟩ := List.mem_filterMap.mp hrest
    have hslash := noSlash_of_mem_pieces hpiece
    rw [partOf?] at hpart
    split at hpart
    · contradiction
    · next hkept =>
        simp only [Bool.or_eq_true, beq_iff_eq, not_or] at hkept
        split at hpart
        · obtain rfl := Option.some.inj hpart
          exact ⟨nofun, ⟨by simp [Part.text], by simp [Part.text]⟩, by simp [partOf?, Part.text]⟩
        · next hparent =>
            obtain rfl := Option.some.inj hpart
            refine ⟨nofun, ⟨hkept.1, hslash⟩, ?_⟩
            exact partOf?_of_name hkept.1 hkept.2 (by simpa [Part.text] using hparent)

/-! ## The directory of a path -/

/-- What is dropped at the end of a path are slashes and single dots. -/
theorem exists_dots (cs : List Char) : ∃ dots : Nat,
    (pieces (String.ofList cs.reverse)).filter (!·.isEmpty) =
      (pieces (String.ofList (dropTrailing cs).reverse)).filter (!·.isEmpty) ++
        List.replicate dots "." := by
  fun_induction dropTrailing cs with
  | case1 rest ih =>
      obtain ⟨dots, hdots⟩ := ih
      refine ⟨dots, ?_⟩
      have hsplit : String.ofList ('/' :: rest).reverse = String.ofList rest.reverse ++ "/" ++ "" := by
        rw [← String.toList_inj]
        simp
      rw [hsplit, pieces_append_slash, List.filter_append, hdots]
      simp [pieces_of_notMem]
  | case2 rest ih =>
      obtain ⟨dots, hdots⟩ := ih
      refine ⟨dots + 1, ?_⟩
      have hsplit : String.ofList ('.' :: '/' :: rest).reverse =
          String.ofList rest.reverse ++ "/" ++ "." := by
        rw [← String.toList_inj]
        simp
      rw [hsplit, pieces_append_slash, List.filter_append, hdots, pieces_of_notMem (show '/' ∉ ".".toList by decide),
        List.append_assoc, List.replicate_succ']
      rfl
  | case3 cs hslash hdot => exact ⟨0, by simp⟩

theorem dropTrailing_suffix (cs : List Char) : dropTrailing cs <:+ cs := by
  fun_induction dropTrailing cs with
  | case1 rest ih => exact ih.trans (List.suffix_cons _ _)
  | case2 rest ih => exact (ih.trans (List.suffix_cons _ _)).trans (List.suffix_cons _ _)
  | case3 cs hslash hdot => exact List.suffix_refl cs

/-- Nothing is dropped behind a name. -/
theorem dropTrailing_of_name (hne : name ≠ "") (hcurrent : name ≠ ".") (h : '/' ∉ name.toList)
    (rest : List Char) :
    dropTrailing (name.toList.reverse ++ rest) = name.toList.reverse ++ rest := by
  have hname : name.toList.reverse ≠ [] := by simpa using hne
  have hdot : name.toList.reverse ≠ ['.'] := fun hdot => hcurrent <| by
    rw [← String.toList_inj, ← List.reverse_reverse name.toList, hdot]
    rfl
  have hslash : '/' ∉ name.toList.reverse := by simpa using h
  generalize name.toList.reverse = cs at *
  match cs with
  | [] => contradiction
  | [c] =>
      have hc : c ≠ '/' := fun hc => hslash (by simp [hc])
      have hc' : c ≠ '.' := fun hc => hdot (by simp [hc])
      rw [dropTrailing]
      · intro rest' heq
        exact hc (List.cons.inj heq).1
      · intro rest' heq
        exact hc' (List.cons.inj heq).1
  | c :: d :: more =>
      have hc : c ≠ '/' := fun hc => hslash (by simp [hc])
      have hd : d ≠ '/' := fun hd => hslash (by simp [hd])
      rw [dropTrailing]
      · intro rest' heq
        exact hc (List.cons.inj heq).1
      · intro rest' heq
        exact hd (List.cons.inj (List.cons.inj heq).2).1

theorem dropWhile_of_name (h : '/' ∉ name.toList) (rest : List Char) :
    (name.toList.reverse ++ rest).dropWhile (· != '/') = rest.dropWhile (· != '/') := by
  rw [List.dropWhile_append_of_pos]
  intro c hc
  simp only [bne_iff_ne, ne_eq]
  rintro rfl
  exact h (List.mem_reverse.mp hc)

end Localization.Path

namespace Localization.Workspace

open Path

theorem steps_append_slash (path rest : String) :
    steps (path ++ "/" ++ rest) = steps path ++ steps rest := by
  rw [steps, pieces_append_slash, List.filter_append]
  rfl

theorem steps_append_empty (path : String) : steps (path ++ "/") = steps path := by
  have hsteps := steps_append_slash path ""
  rw [String.append_empty] at hsteps
  rw [hsteps]
  simp [steps, pieces, splitFrom]

theorem steps_join (path : String) {name : String} (hname : isAbsolute name = false) :
    steps (join path name) = steps path ++ steps name := by
  rw [join, hname, if_neg Bool.false_ne_true]
  split
  · next hslash =>
      by_cases hne : path = ""
      · subst hne
        rw [String.empty_append]
        rfl
      · obtain ⟨above, rfl⟩ := exists_above_of_slash (by simpa [hne] using hslash)
        rw [steps_append_slash, steps_append_empty]
  · exact steps_append_slash path name

theorem steps_intercalate {names : List String} (h : ∀ n ∈ names, IsPiece n) :
    steps ("/".intercalate names) = names := by
  by_cases hne : names = []
  · rw [hne]
    simp [steps, pieces, splitFrom]
  · rw [steps, pieces_intercalate hne h, List.filter_eq_self.mpr]
    intro n hn
    simpa using (h n hn).ne_empty

theorem steps_of_notMem {name : String} (hne : name ≠ "") (h : '/' ∉ name.toList) :
    steps name = [name] := by
  rw [steps, pieces_of_notMem h]
  simp [hne]

theorem steps_ne_nil {path : String} (hne : path ≠ "") (h : endsWithSlash path = false) :
    steps path ≠ [] := by
  rcases exists_last path with hsingle | ⟨above, last, rfl, hlast⟩
  · rw [steps_of_notMem hne hsingle]
    exact List.cons_ne_nil _ _
  · have hlast' : last ≠ "" := by
      rintro rfl
      simp [endsWithSlash] at h
    rw [steps_append_slash, steps_of_notMem hlast' hlast]
    simp

/-- The directory of a path that ends with a name: behind its steps there may be single dots, and then
the name. -/
theorem exists_parent {path name : String} (hslash : endsWithSlash path = false)
    (hlast : (steps path).getLast? = some name) (hcurrent : name ≠ ".") (hparent : name ≠ "..") :
    ∃ (parent : String) (dots : Nat), parent? path = some parent ∧
      steps path = steps parent ++ List.replicate dots "." ++ [name] ∧
      (parent = "" ∨ isAbsolute parent = isAbsolute path ∧ parent.toList ⊆ path.toList) := by
  rcases exists_last path with hsingle | ⟨above, last, rfl, hnone⟩
  · have hpath : path ≠ "" := by
      rintro rfl
      simp [steps, pieces, splitFrom] at hlast
    have hrelative : isAbsolute path = false := by
      cases hcs : path.toList with
      | nil => simp [isAbsolute, hcs]
      | cons c rest =>
          have hc : c ≠ '/' := fun hc => hsingle (by simp [hcs, hc])
          simp [isAbsolute, hcs, hc]
    rw [steps_of_notMem hpath hsingle] at hlast ⊢
    obtain rfl : path = name := by simpa using hlast
    refine ⟨"", 0, ?_, by simp [steps, pieces, splitFrom], .inl rfl⟩
    -- Nothing is left of a single name, neither a slash nor what stands in front of it.
    have hdrop := dropTrailing_of_name hpath hcurrent hsingle []
    have hwhile := dropWhile_of_name hsingle []
    rw [List.append_nil] at hdrop hwhile
    simp [parent?, parts, pieces_of_notMem hsingle, hrelative, partOf?_of_name hpath hcurrent hparent,
      hcurrent, hdrop, hwhile, dropTrailing]
  · have hne : last ≠ "" := by
      rintro rfl
      simp [endsWithSlash] at hslash
    rw [steps_append_slash, steps_of_notMem hne hnone] at hlast ⊢
    obtain rfl : last = name := by simpa using hlast
    have hend : (parts (above ++ "/" ++ last)).getLast? = some (.name last) := by
      rw [parts_eq, pieces_append_slash, pieces_of_notMem hnone, List.filterMap_append]
      simp [partOf?_of_name hne hcurrent hparent]
    have hreverse : (above ++ "/" ++ last).toList.reverse =
        last.toList.reverse ++ '/' :: above.toList.reverse := by simp
    have hwhile : ('/' :: above.toList.reverse).dropWhile (· != '/') = '/' :: above.toList.reverse :=
      rfl
    have hslash : dropTrailing ('/' :: above.toList.reverse) = dropTrailing above.toList.reverse := by
      rw [dropTrailing]
    obtain ⟨dots, hdots⟩ := exists_dots above.toList.reverse
    have hsuffix := dropTrailing_suffix above.toList.reverse
    simp only [parent?, hend, hreverse, dropTrailing_of_name hne hcurrent hnone,
      dropWhile_of_name hnone, hwhile, hslash]
    rw [List.reverse_reverse, String.ofList_toList] at hdots
    generalize dropTrailing above.toList.reverse = kept at *
    have hsteps : steps above = steps (String.ofList kept.reverse) ++ List.replicate dots "." := hdots
    cases kept with
    | nil =>
        -- Only slashes and dots stand in front of the name: the parent is the root or nothing at all.
        by_cases hrooted : isAbsolute (above ++ "/" ++ last) = true
        · refine ⟨"/", dots, by simp [hrooted], by rw [hsteps]; rfl, .inr ⟨by rw [hrooted]; rfl, ?_⟩⟩
          simp
        · refine ⟨"", dots, by simp [hrooted], by rw [hsteps]; rfl, .inl rfl⟩
    | cons c kept =>
        have hprefix : (String.ofList (c :: kept).reverse).toList <+: (above ++ "/" ++ last).toList := by
          obtain ⟨dropped, hdropped⟩ := hsuffix
          refine ⟨dropped.reverse ++ '/' :: last.toList, ?_⟩
          rw [String.toList_ofList, ← List.append_assoc, ← List.reverse_append, hdropped]
          simp
        refine ⟨String.ofList (c :: kept).reverse, dots, by simp, by rw [hsteps], .inr ⟨?_, hprefix.subset⟩⟩
        exact isAbsolute_of_isPrefix (by simp) hprefix

end Localization.Workspace
