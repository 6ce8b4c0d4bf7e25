import Localization.Proofs.Component.HookImport
import Localization.Proofs.Component.ImportPlace
import Localization.Proofs.Source.Grammar.Directive

/-!
Making the hook importable a second time changes nothing where the first edit is read as it is meant. What is
added is so read, unless what stands in front of it runs on into it. Main statement: `importEdits_again`.
-/

namespace Localization

open Source (Node Place ReadsDirectives importTail)
open Text (byteLength)

/-! ### The start of a text -/

section

variable {front back new : List Char} {offset : Nat}

theorem exists_textStart_append (hle : (Source.textStart (front ++ back)).offset ≤ byteLength front)
    (hnew : new.head? ≠ some Source.byteOrderMark) :
    ∃ behind, (Source.textStart (front ++ back)).rest = behind ++ back ∧
      byteLength front = (Source.textStart (front ++ back)).offset + byteLength behind ∧
      Source.textStart (front ++ new) = ⟨behind ++ new, (Source.textStart (front ++ back)).offset⟩ := by
  cases front with
  | nil =>
      have hback : back.head? ≠ some Source.byteOrderMark := by
        intro hmark
        simp [Source.textStart, hmark, byteLength] at hle
      exact ⟨[], by simp [Source.textStart, hback, hnew, byteLength]⟩
  | cons c front =>
      by_cases hc : c = Source.byteOrderMark
      · subst hc
        exact ⟨front, rfl, rfl, rfl⟩
      · exact ⟨c :: front, by simp [Source.textStart, hc]⟩

/-- The first line of a text that begins with `#!`, which ends in front of a line terminator. -/
theorem exists_interpreterLine {text : List Char} (h : text.take 2 = ['#', '!']) :
    ∃ more behind, text = '#' :: '!' :: more ++ behind ∧
      (∀ c ∈ '#' :: '!' :: more, Source.isLineTerminator c = false) ∧
      (behind = [] ∨ behind.head?.any Source.isLineTerminator = true) := by
  obtain ⟨rest, rfl⟩ : ∃ rest, text = '#' :: '!' :: rest :=
    ⟨text.drop 2, by rw [← List.take_append_drop 2 text, h]; rfl⟩
  refine ⟨rest.takeWhile (!Source.isLineTerminator ·), rest.dropWhile (!Source.isLineTerminator ·), ?_, ?_, ?_⟩
  · simp [List.takeWhile_append_dropWhile]
  · intro c hc
    rcases List.mem_cons.mp hc with rfl | hc
    · rfl
    rcases List.mem_cons.mp hc with rfl | hc
    · rfl
    · simpa using List.mem_takeWhile_imp hc
  · cases hbehind : rest.dropWhile (!Source.isLineTerminator ·) with
    | nil => exact .inl rfl
    | cons d more =>
        have hd := List.head?_dropWhile_not (!Source.isLineTerminator ·) rest
        rw [hbehind] at hd
        exact .inr (by simpa using hd)

theorem skipInterpreterLine_append {more behind : List Char}
    (hmore : ∀ c ∈ '#' :: '!' :: more, Source.isLineTerminator c = false)
    (hbehind : behind = [] ∨ behind.head?.any Source.isLineTerminator = true) :
    Source.skipInterpreterLine ⟨'#' :: '!' :: more ++ behind, offset⟩ =
      ⟨behind, offset + byteLength ('#' :: '!' :: more)⟩ := by
  have hline : ('#' :: '!' :: more ++ behind).takeWhile (!Source.isLineTerminator ·) =
      '#' :: '!' :: more := by
    rw [List.takeWhile_append_of_pos fun c hc => by simp [hmore c hc]]
    rcases hbehind with rfl | hbehind
    · simp
    · cases behind with
      | nil => simp
      | cons d rest => simpa using hbehind
  have hmark : ('#' :: '!' :: more ++ behind).take 2 = ['#', '!'] := rfl
  simp only [Source.skipInterpreterLine, hmark, if_true, hline, List.drop_left]

/-- The line of an interpreter ends at the same byte if the text changes behind it. -/
theorem exists_skipInterpreterLine_append
    (hle : (Source.skipInterpreterLine ⟨front ++ back, offset⟩).offset ≤ offset + byteLength front)
    (hnew : ∃ d more, new = d :: more ∧ d ≠ '#' ∧ d ≠ '!')
    (hline : (front ++ back).take 2 = ['#', '!'] →
      (Source.skipInterpreterLine ⟨front ++ back, offset⟩).offset = offset + byteLength front →
        new.head?.any Source.isLineTerminator = true) :
    ∃ behind, (Source.skipInterpreterLine ⟨front ++ back, offset⟩).rest = behind ++ back ∧
      Source.skipInterpreterLine ⟨front ++ new, offset⟩ =
        ⟨behind ++ new, (Source.skipInterpreterLine ⟨front ++ back, offset⟩).offset⟩ := by
  by_cases hmark : (front ++ back).take 2 = ['#', '!']
  · obtain ⟨more, rest, hsplit, hmore, hrest⟩ := exists_interpreterLine hmark
    rw [hsplit, skipInterpreterLine_append hmore hrest] at hle hline ⊢
    obtain ⟨behind, rfl, rfl⟩ : ∃ behind, front = '#' :: '!' :: more ++ behind ∧ rest = behind ++ back := by
      rcases List.append_eq_append_iff.mp hsplit with ⟨extra, hextra, rfl⟩ | ⟨behind, hfront, hrest⟩
      · have hlength := congrArg byteLength hextra
        rw [Text.byteLength_append] at hlength
        dsimp only at hle
        obtain rfl : extra = [] := Text.byteLength_eq_zero.mp (by omega)
        exact ⟨[], by simpa using hextra.symm, rfl⟩
      · exact ⟨behind, hfront, hrest⟩
    refine ⟨behind, rfl, ?_⟩
    rw [List.append_assoc]
    refine skipInterpreterLine_append hmore ?_
    cases behind with
    | nil => exact .inr (hline (by simp) (by rw [List.append_nil]))
    | cons d behind => exact .inr (hrest.resolve_left (by simp))
  · obtain ⟨d, more, rfl, hhash, hbang⟩ := hnew
    refine ⟨front, by simp [Source.skipInterpreterLine, hmark], ?_⟩
    have hother : (front ++ d :: more).take 2 ≠ ['#', '!'] := by
      match front with
      | [] => simp [hhash]
      | [c] => simp [hbang]
      | c :: e :: front => simpa using hmark
    simp [Source.skipInterpreterLine, hmark, hother]

/-- Behind what is kept of a text, its first place stays the same. -/
theorem exists_firstPlace_append {p : Place}
    (hp : p = Source.skipInterpreterLine (Source.textStart (front ++ back)))
    (hle : p.offset ≤ byteLength front)
    (hnew : ∃ d more, new = d :: more ∧ d ≠ Source.byteOrderMark ∧ d ≠ '#' ∧ d ≠ '!')
    (hline : Source.HasInterpreterLine (front ++ back) → p.offset = byteLength front →
      new.head?.any Source.isLineTerminator = true) :
    ∃ behind, p.rest = behind ++ back ∧
      Source.skipInterpreterLine (Source.textStart (front ++ new)) = ⟨behind ++ new, p.offset⟩ := by
  subst hp
  have hstart := (Source.Parser.enters_skipInterpreterLine (Source.textStart (front ++ back))).reaches.le
  obtain ⟨d, more, rfl, hmark, hhash, hbang⟩ := hnew
  obtain ⟨kept, hrest, hlength, hother⟩ := exists_textStart_append
    (Nat.le_trans hstart hle) (show (d :: more).head? ≠ some Source.byteOrderMark by simpa using hmark)
  have hplace : Source.textStart (front ++ back) =
      ⟨kept ++ back, (Source.textStart (front ++ back)).offset⟩ := by rw [← hrest]
  rw [Source.HasInterpreterLine, hplace] at hline
  rw [hplace, hlength] at hle
  rw [hlength, hplace] at hline
  rw [hother, hplace]
  exact exists_skipInterpreterLine_append hle ⟨d, more, rfl, hhash, hbang⟩ hline

end

/-! ### What a new import is read as -/

/-- What stands in front of a new import is read whatever follows it: of the directives only strings and
semicolons are read, and without directives a line for an interpreter ends with a line feed. -/
def HasPlainFront (source : List Char) (module : Node) : Prop :=
  match module.directiveItems.getLast? with
  | some directive => ∃ q, q.offset = directive.span.hi ∧
      ReadsDirectives true (Source.skipInterpreterLine (Source.textStart source)) q
  | none => Source.HasInterpreterLine source → ∃ ending rest, (ending = [] ∨ ending = ['\r']) ∧
      (Source.skipInterpreterLine (Source.textStart source)).rest = ending ++ '\n' :: rest

theorem behindFirstLine_of_lineFeed {start : Place} {ending rest : List Char}
    (hmark : start.rest.take 2 = ['#', '!']) (hending : ending = [] ∨ ending = ['\r'])
    (h : (Source.skipInterpreterLine start).rest = ending ++ '\n' :: rest) :
    behindFirstLine start = (Source.skipInterpreterLine start).offset + byteLength (ending ++ ['\n']) := by
  obtain ⟨text, offset⟩ := start
  obtain ⟨more, behind, rfl, hmore, hbehind⟩ := exists_interpreterLine hmark
  rw [skipInterpreterLine_append hmore hbehind] at h ⊢
  obtain rfl : behind = ending ++ '\n' :: rest := h
  have hfeed : ∀ c ∈ '#' :: '!' :: more ++ ending, (c != '\n') = true := by
    intro c hc
    rcases List.mem_append.mp hc with hc | hc
    · have hplain := hmore c hc
      simp only [bne_iff_ne]
      rintro rfl
      contradiction
    · rcases hending with rfl | rfl <;> simp_all
  have hline : ('#' :: '!' :: more ++ (ending ++ '\n' :: rest)).takeWhile (· != '\n') =
      '#' :: '!' :: more ++ ending := by
    rw [← List.append_assoc, List.takeWhile_append_of_pos hfeed]
    simp
  have hrest : (('#' :: '!' :: more ++ (ending ++ '\n' :: rest)).drop
      ('#' :: '!' :: more ++ ending).length).isEmpty = false := by
    rw [← List.append_assoc, List.drop_left]
    rfl
  dsimp only at hmark
  simp only [behindFirstLine, hmark, if_true, hline, hrest, Bool.false_eq_true, if_false,
    Text.byteLength_append]
  have hsize : byteLength ['\n'] = 1 := rfl
  omega

/-- The text of a new import, in front of another text. -/
def importText (space : String) (rest : List Char) : List Char :=
  "import".toList ++ importTail space rest

theorem toList_declaration (space : String) (rest : List Char) :
    ("import \x7b " ++ hookName ++ " \x7d from " ++ Text.Quoted.encode space ++ ";").toList ++ rest =
      importText space rest := by
  have htext : importText space rest = ("import \x7b ".toList ++ hookName.toList ++ " \x7d from ".toList) ++
      ((Text.Quoted.encode space).toList ++ ';' :: rest) := rfl
  rw [htext]
  simp only [String.toList_append, List.append_assoc]
  rfl

/-- A new import begins with the word `import`, in front of which a line may end. -/
theorem nextToken_importText {gap : List Char} (h : gap ∈ [[], ['\n'], ['\r', '\n']]) (newline : Bool)
    (space : String) (rest : List Char) (offset : Nat) :
    (Source.nextToken newline ⟨gap ++ importText space rest, offset⟩).token.kind = .name "import" false ∧
      (Source.nextToken newline ⟨gap ++ importText space rest, offset⟩).after =
        ⟨importTail space rest, offset + byteLength gap + 6⟩ := by
  simp only [List.mem_cons, List.not_mem_nil, or_false] at h
  rcases h with rfl | rfl | rfl <;> exact ⟨rfl, rfl⟩

theorem newImport_of_directive (source : List Char) {module directive : Node} (space : String)
    (hlast : module.directiveItems.getLast? = some directive) (rest : List Char) :
    ∃ text gap, newImport module source space = Edit.insert directive.span.hi text ∧
      (gap = ['\n'] ∨ gap = ['\r', '\n']) ∧ text.toList ++ rest = gap ++ importText space rest := by
  have hnew : newImport module source space = Edit.insert directive.span.hi (Text.lineEnding source ++
      ("import \x7b " ++ hookName ++ " \x7d from " ++ Text.Quoted.encode space ++ ";")) := by
    rw [newImport, show (module.children.takeWhile Node.isStringStatement).getLast? = some directive from hlast]
  refine ⟨_, (Text.lineEnding source).toList, hnew, ?_, ?_⟩
  · rcases Text.lineEnding_eq source with h | h <;> simp [h]
  · rw [String.toList_append, List.append_assoc, toList_declaration]

theorem newImport_of_none (source : List Char) {module : Node} (space : String)
    (hnone : module.directiveItems.getLast? = none) (rest : List Char) :
    ∃ text behind, newImport module source space =
        Edit.insert (behindFirstLine (Source.textStart source)) text ∧
      text.toList ++ rest = importText space behind := by
  have hnew : newImport module source space = Edit.insert (behindFirstLine (Source.textStart source))
      ("import \x7b " ++ hookName ++ " \x7d from " ++ Text.Quoted.encode space ++ ";" ++
        Text.lineEnding source) := by
    rw [newImport, show (module.children.takeWhile Node.isStringStatement).getLast? = none from hnone]
  refine ⟨_, (Text.lineEnding source).toList ++ rest, hnew, ?_⟩
  rw [String.toList_append, List.append_assoc, toList_declaration]

/-- The first place behind a new import: directives lead from it to the import. -/
theorem exists_directives_newImport {source : List Char} {module : Node} (space : String)
    (hplain : HasPlainFront source module) :
    ∃ front back text, source = front ++ back ∧
      newImport module source space = Edit.insert (byteLength front) text ∧
      ∃ gap ∈ [[], ['\n'], ['\r', '\n']], ∃ rest offset,
        ReadsDirectives true (Source.skipInterpreterLine (Source.textStart (front ++ (text.toList ++ back))))
          ⟨gap ++ importText space rest, offset⟩ := by
  obtain ⟨before, hsource, hlength⟩ := (Source.Parser.enters_firstCursor source).reaches
  generalize hp : Source.skipInterpreterLine (Source.textStart source) = p at *
  dsimp only at hsource hlength
  rw [Nat.zero_add] at hlength
  -- What stands between the first place and the import is kept, so its end tells where the import begins.
  have hfirst {kept back new : List Char} (hrest : p.rest = kept ++ back)
      (hnew : ∃ d more, new = d :: more ∧ d ≠ Source.byteOrderMark ∧ d ≠ '#' ∧ d ≠ '!')
      (hline : Source.HasInterpreterLine source → kept = [] →
        new.head?.any Source.isLineTerminator = true) :
      Source.skipInterpreterLine (Source.textStart (before ++ kept ++ new)) = ⟨kept ++ new, p.offset⟩ := by
    have hwhole : source = before ++ kept ++ back := by rw [hsource, hrest, List.append_assoc]
    obtain ⟨behind, hbehind, hother⟩ := exists_firstPlace_append
      (show p = Source.skipInterpreterLine (Source.textStart (before ++ kept ++ back)) by rw [← hwhole, hp])
      (by rw [hlength, Text.byteLength_append]; exact Nat.le_add_right _ _) hnew (fun hmark hend => by
        rw [← hwhole] at hmark
        rw [hlength, Text.byteLength_append] at hend
        exact hline hmark (Text.byteLength_eq_zero.mp (by omega)))
    obtain rfl : behind = kept := List.append_cancel_right (hbehind.symm.trans hrest)
    exact hother
  unfold HasPlainFront at hplain
  split at hplain
  · next directive hlast =>
      obtain ⟨q, hend, hreads⟩ := hplain
      rw [hp] at hreads
      obtain ⟨kept, ⟨hrest, hkept⟩, hother⟩ := hreads.exists_front
      obtain ⟨text, gap, hnew, hgap, htext⟩ := newImport_of_directive source space hlast q.rest
      refine ⟨before ++ kept, q.rest, text, by rw [hsource, hrest, List.append_assoc], ?_, gap, ?_, q.rest,
        q.offset, ?_⟩
      · rw [hnew, Text.byteLength_append, ← hlength, ← hkept, hend]
      · rcases hgap with rfl | rfl <;> simp
      · rw [htext, hfirst hrest]
        · exact hother _
        · rcases hgap with rfl | rfl
          · exact ⟨'\n', _, rfl, by decide⟩
          · exact ⟨'\r', _, rfl, by decide⟩
        · rcases hgap with rfl | rfl <;> exact fun _ _ => rfl
  · next hnone =>
      have hbegins (rest : List Char) : ∃ d more, importText space rest = d :: more ∧
          d ≠ Source.byteOrderMark ∧ d ≠ '#' ∧ d ≠ '!' := ⟨'i', _, rfl, by decide⟩
      by_cases hmark : Source.HasInterpreterLine source
      · obtain ⟨ending, rest, hending, hrest⟩ := hplain hmark
        rw [hp] at hrest
        obtain ⟨text, behind, hnew, htext⟩ := newImport_of_none source space hnone rest
        have hkept : p.rest = (ending ++ ['\n']) ++ rest := by rw [hrest, List.append_assoc]; rfl
        refine ⟨before ++ (ending ++ ['\n']), rest, text, ?_, ?_,
          ending ++ ['\n'], ?_, behind, p.offset, ?_⟩
        · rw [hsource, hkept]
          simp only [List.append_assoc]
        · rw [hnew, behindFirstLine_of_lineFeed hmark hending (by rw [hp, hrest]), hp, hlength,
            Text.byteLength_append before]
        · rcases hending with rfl | rfl <;> simp
        · rw [htext, hfirst hkept (hbegins behind) (fun _ hnil => absurd hnil (by simp))]
          exact .done ..
      · obtain ⟨text, behind, hnew, htext⟩ := newImport_of_none source space hnone p.rest
        have hstart : p = Source.textStart source := by
          rw [← hp]
          exact if_neg hmark
        refine ⟨before, p.rest, text, hsource, ?_, [], by simp, behind, p.offset, ?_⟩
        · rw [hnew, show behindFirstLine (Source.textStart source) = (Source.textStart source).offset from
            if_neg hmark, ← hstart, hlength]
        · have hplace := hfirst (show p.rest = [] ++ p.rest from rfl) (hbegins behind)
            (fun hline _ => absurd hline hmark)
          rw [List.append_nil] at hplace
          rw [htext, hplace]
          exact .done ..

/-! ### One insertion -/

theorem Edit.applyAll_insert (front back : List Char) (text : String) :
    Edit.applyAll (front ++ back) [Edit.insert (byteLength front) text] =
      .ok (front ++ text.toList ++ back) := by
  have hle : ¬(byteLength (front ++ back) < byteLength front) := by
    rw [Text.byteLength_append]
    omega
  simp [applyAll, sort, insertOrdered, applyFrom, insert, hle, Text.splitAtByte_append, Text.splitAtByte]
  rfl

section

variable {path space : String} {source : List Char} {module : Node}

theorem exists_specifier_of_extendImport? {item : Node} {edit : Edit} (h : extendImport? item = some edit) :
    ∃ specifier ∈ item.children, ∃ text, edit = Edit.insert specifier.span.hi text := by
  rw [extendImport?] at h
  split at h
  · next last hlast =>
      cases h
      exact ⟨last, List.mem_of_mem_filter (List.mem_of_mem_filter (List.mem_of_getLast? hlast)), _, rfl⟩
  · split at h
    · next specifier hspecifiers =>
        have hmem : specifier ∈ item.children :=
          List.mem_of_mem_filter (hspecifiers ▸ List.mem_singleton_self specifier)
        split at h
        · cases h
          exact ⟨specifier, hmem, _, rfl⟩
        · contradiction
    · contradiction

/-- At most one insertion is made, between two characters. -/
theorem importEdits_cases (space : String) (h : Source.parseFile path source = .ok module) :
    importEdits module source space = (.present, []) ∨
      ∃ change at_ text, change ≠ .present ∧ Text.IsBoundary source at_ ∧
        importEdits module source space = (change, [Edit.insert at_ text]) := by
  rw [importEdits]
  split
  · exact .inl rfl
  · refine .inr ?_
    split
    · next edit hedit =>
        obtain ⟨item, hitem, hextend⟩ := List.exists_of_findSome?_eq_some hedit
        obtain ⟨specifier, hmem, text, rfl⟩ := exists_specifier_of_extendImport? hextend
        have hclear := (Source.Parser.clear_parseFile h).child (List.mem_of_mem_filter hitem)
        exact ⟨.extended, _, text, by decide, Source.isBoundary_of_clear (hclear.child hmem), rfl⟩
    · obtain ⟨at_, text, hnew, hat⟩ := exists_place_newImport space h
      exact ⟨.added, at_, text, by decide, hat, by rw [hnew]⟩

/-! ### The second time -/

theorem importEdits_of_providesHook
    (h : (module.children.filter (isValueImportFrom space)).any providesHook = true) :
    importEdits module source space = (.present, []) :=
  if_pos h

theorem any_providesHook_withHookImport (space : String) (items : List Node) :
    ((withHookImport space items).filter (isValueImportFrom space)).any providesHook = true := by
  cases hprovides : (items.filter (isValueImportFrom space)).any providesHook with
  | true => rwa [withHookImport, if_pos hprovides]
  | false => exact any_providesHook_of_importsHook (withHookImport_spec hprovides).2

/-- A text in which an import of the hook stands behind directives imports it. -/
theorem any_providesHook_of_readsDirectives {output gap rest : List Char} {offset : Nat} {again : Node}
    (hagain : Source.parseFile path output = .ok again) (hgap : gap ∈ [[], ['\n'], ['\r', '\n']])
    (h : ReadsDirectives true (Source.skipInterpreterLine (Source.textStart output))
      ⟨gap ++ importText space rest, offset⟩) :
    (again.children.filter (isValueImportFrom space)).any providesHook = true := by
  have hitems := Source.Parser.readsItems_of_parseFile hagain
  rw [show 16 * (byteLength output + 4) = (16 * byteLength output + 59) + 5 by omega] at hitems
  have hfirst : (Source.Parser.firstCursor (Source.allowsElements path) output).At true
      (Source.skipInterpreterLine (Source.textStart output)) := ⟨rfl, rfl⟩
  obtain ⟨lo, hmem⟩ := (Source.Parser.exists_spelledImport_of_readsDirectives
    (fun newline => (nextToken_importText hgap newline space rest offset).1) h
    (fun newline => (nextToken_importText hgap newline space rest offset).2)).1 hfirst hitems
  refine any_providesHook_of_importsHook (List.any_eq_true.mpr ⟨_, hmem, ?_⟩)
  simp [importsHook, isValueImportFrom, Source.Parser.spelledImport, Source.Parser.spelledSpecifier, hookName]

end

/-- A module with a default import and empty braces. -/
def emptyBraces : List Char :=
  "import d, \x7b\x7d from \"i18nexus\";\nfunction A() \x7b\x7d\n".toList

end Localization
