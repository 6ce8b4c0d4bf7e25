import Localization.Proofs.Component.WrappedElement

/-!
The white space around a text between tags. What is written there as it is stays where the text is replaced
by a call; a reference to a blank is replaced together with the text. Main statement:
`wrapSource_keeps_blanks_iff`.
-/

namespace Localization

open Source (Node Kind Span)
open Source.Entity (decode)
open Source.Parser (joinLineEnds)
open Text (byteLength isBlank IsTrimmed sliceBytes)

/-! ### Blanks around a text -/

section

variable {front text back cs : List Char}

theorem leadingBlanks_append (h : ∀ c ∈ front, isBlank c = true) (cs : List Char) :
    leadingBlanks (front ++ cs) = front ++ leadingBlanks cs :=
  List.takeWhile_append_of_pos h

theorem leadingBlanks_append_right (h : ∃ c ∈ cs, isBlank c = false) (back : List Char) :
    leadingBlanks (cs ++ back) = leadingBlanks cs := by
  rw [leadingBlanks, List.takeWhile_append, if_neg, leadingBlanks]
  intro hlength
  obtain ⟨c, hc, hkept⟩ := h
  have hall := (List.takeWhile_prefix isBlank (l := cs)).eq_of_length hlength
  rw [List.takeWhile_eq_self_iff.mp hall c hc] at hkept
  contradiction

theorem trailingBlanks_eq_reverse (cs : List Char) :
    trailingBlanks cs = (leadingBlanks cs.reverse).reverse :=
  rfl

theorem leadingBlanks_surrounded (h : ∃ c ∈ cs, isBlank c = false)
    (hfront : ∀ c ∈ front, isBlank c = true) (back : List Char) :
    leadingBlanks (front ++ cs ++ back) = front ++ leadingBlanks cs := by
  rw [List.append_assoc, leadingBlanks_append hfront, leadingBlanks_append_right h]

theorem trailingBlanks_surrounded (h : ∃ c ∈ cs, isBlank c = false) (front : List Char)
    (hback : ∀ c ∈ back, isBlank c = true) :
    trailingBlanks (front ++ cs ++ back) = trailingBlanks cs ++ back := by
  have hreverse : ∃ c ∈ cs.reverse, isBlank c = false := by simpa using h
  rw [trailingBlanks_eq_reverse, List.reverse_append, List.reverse_append, ← List.append_assoc,
    leadingBlanks_surrounded hreverse (by simpa using hback), List.reverse_append,
    List.reverse_reverse, trailingBlanks_eq_reverse]

theorem leadingBlanks_eq_nil (h : ∀ c ∈ cs.head?, isBlank c = false) : leadingBlanks cs = [] := by
  cases cs with
  | nil => rfl
  | cons c rest => exact List.takeWhile_cons_of_neg (by rw [h c rfl]; exact Bool.false_ne_true)

theorem exists_not_blank_of_isTrimmed (h : IsTrimmed text) : ∃ c ∈ text, isBlank c = false := by
  obtain ⟨c, rest, rfl⟩ := List.exists_cons_of_ne_nil h.nonempty
  exact ⟨c, List.mem_cons_self, h.head c rfl⟩

theorem blanks_of_isTrimmed (htext : IsTrimmed text) (hfront : ∀ c ∈ front, isBlank c = true)
    (hback : ∀ c ∈ back, isBlank c = true) :
    leadingBlanks (front ++ text ++ back) = front ∧ trailingBlanks (front ++ text ++ back) = back := by
  have hsome := exists_not_blank_of_isTrimmed htext
  constructor
  · rw [leadingBlanks_surrounded hsome hfront, leadingBlanks_eq_nil htext.head, List.append_nil]
  · rw [trailingBlanks_surrounded hsome front hback, trailingBlanks_eq_reverse,
      leadingBlanks_eq_nil (by rw [List.head?_reverse]; exact htext.last)]
    rfl

end

/-! ### Blanks in the output -/

/-- The kinds of the nodes between tags that show some white space. -/
def blankKinds (blanks : List Char) : List Kind :=
  if blanks.isEmpty then [] else [.jsxText (String.ofList blanks)]

/-- Nodes between tags that show white space, the lookup of a key in braces, and white space again. -/
def ShowsLookup (source output leading : List Char) (key : String) (trailing : List Char)
    (nodes : List Node) : Prop :=
  ∃ before container after, nodes = before ++ container :: after ∧
    before.map Node.kind = blankKinds leading ∧
    alike output source container (newNode .jsxContainer [callNode lookupName (some key)]) = true ∧
    after.map Node.kind = blankKinds trailing

/-- What is written between tags, cut into a text and the blanks around it. -/
structure IsCut (source : List Char) (span : Span) (front text back : List Char) : Prop where
  isTrimmed : IsTrimmed text
  leading : ∀ c ∈ front, isBlank c = true
  trailing : ∀ c ∈ back, isBlank c = true
  slice : sliceBytes source span.lo span.hi = front ++ text ++ back

theorem isEmpty_joinLineEnds (cs : List Char) : (joinLineEnds cs).isEmpty = cs.isEmpty := by
  unfold joinLineEnds
  split <;> rfl

theorem map_kind_blankNodes (blanks : List Char) (span : Span) :
    (blankNodes blanks span).map Node.kind = blankKinds (joinLineEnds blanks) := by
  rw [blankNodes, blankKinds, isEmpty_joinLineEnds]
  split
  · rfl
  · rfl

theorem blankKinds_inj {blanks others : List Char} :
    blankKinds blanks = blankKinds others ↔ blanks = others := by
  constructor
  · intro h
    cases blanks with
    | nil => cases others <;> simp_all [blankKinds]
    | cons c rest =>
        cases others with
        | nil => simp [blankKinds] at h
        | cons d more =>
            simp only [blankKinds, List.isEmpty_cons, Bool.false_eq_true, if_false, List.cons.injEq,
              Kind.jsxText.injEq, and_true] at h
            exact String.ofList_inj.mp h
  · rintro rfl
    rfl

theorem notMem_blankKinds (blanks : List Char) : Kind.jsxContainer ∉ blankKinds blanks := by
  cases blanks <;> simp [blankKinds]

section

variable {source output leading trailing : List Char} {key : String} {nodes : List Node}

theorem ShowsLookup.kinds (h : ShowsLookup source output leading key trailing nodes) :
    nodes.map Node.kind = blankKinds leading ++ .jsxContainer :: blankKinds trailing := by
  obtain ⟨before, container, after, rfl, hbefore, hcontainer, hafter⟩ := h
  rw [List.map_append, List.map_cons, hbefore, hafter, (alike_iff.mp hcontainer).1]
  rfl

/-- Nodes show one white space only on each side of a lookup. -/
theorem ShowsLookup.iff (h : ShowsLookup source output leading key trailing nodes)
    {front back : List Char} : ShowsLookup source output front key back nodes ↔
      front = leading ∧ back = trailing := by
  constructor
  · intro hothers
    have hkinds := hothers.kinds.symm.trans h.kinds
    rw [List.append_cons_inj_of_notMem (notMem_blankKinds _) (notMem_blankKinds _)] at hkinds
    exact ⟨blankKinds_inj.mp hkinds.1, blankKinds_inj.mp hkinds.2.2⟩
  · rintro ⟨rfl, rfl⟩
    exact h

/-- The nodes in the place of a text between tags show what is written around it. -/
theorem showsLookup_of_nodes {span : Span} {front text back : List Char} {l : Literal}
    (o : WrapOptions) (hcut : IsCut source span front text back) (hsite : l.site = .elementText)
    (h : alikeAll output source nodes (l.nodes o.generator source span) = true) :
    ShowsLookup source output (joinLineEnds front) (o.keyOf l) (joinLineEnds back) nodes := by
  obtain ⟨hleading, htrailing⟩ := blanks_of_isTrimmed hcut.isTrimmed hcut.leading hcut.trailing
  simp only [Literal.nodes, hsite, LiteralSite.node, hcut.slice, hleading, htrailing] at h
  obtain ⟨before, behind, rfl, hbefore, hbehind⟩ := exists_append_of_alikeAll h
  cases behind with
  | nil => simp [alikeAll] at hbehind
  | cons container after =>
      rw [alikeAll, Bool.and_eq_true] at hbehind
      refine ⟨before, container, after, rfl, ?_, hbehind.1, ?_⟩
      · rw [alikeAll_kinds hbefore, map_kind_blankNodes]
      · rw [alikeAll_kinds hbehind.2, map_kind_blankNodes]

end

theorem exists_not_blank_of_trim {front text back : List Char} (hfront : ∀ c ∈ front, isBlank c = true)
    (hback : ∀ c ∈ back, isBlank c = true)
    (h : (Text.trimString (String.ofList (front ++ text ++ back))).isEmpty = false) :
    ∃ c ∈ text, isBlank c = false := by
  by_contra hnone
  have hblank : ∀ c ∈ front ++ text ++ back, isBlank c = true := by
    intro c hc
    rw [List.mem_append, List.mem_append] at hc
    rcases hc with (hc | hc) | hc
    · exact hfront c hc
    · exact Bool.not_eq_false _ ▸ fun hkept => hnone ⟨c, hc, hkept⟩
    · exact hback c hc
  rw [Text.trimString, String.toList_ofList, Text.trim_of_blank hblank] at h
  contradiction

/-- A text between tags that is to be replaced is a literal, and some blanks are written around it. -/
theorem exists_literal_of_leadsToText {o : WrapOptions} {source : List Char} {body : Node}
    {way : List Node} {value : String} (hclear : (body.endOf way).Clear (Source.Parser.sourceGap source))
    (h : leadsToText o.classifier body way = true) (hkind : (body.endOf way).kind = .jsxText value) :
    isLeftAlone (body :: way) = false ∧ (Text.trimString value).isEmpty = false ∧
      ∃ l, Literal.ofNode? source (body.endOf way) = some l ∧ l.site = .elementText ∧
        l.text = Text.trimString value ∧ o.classifier.accepts l.text = true ∧
        ∃ front text back, IsCut source (body.endOf way).span front text back ∧
          l.start = (body.endOf way).span.lo + byteLength front ∧
          l.stop = (body.endOf way).span.lo + byteLength front + byteLength text := by
  rw [leadsToText, Bool.and_eq_true, Bool.not_eq_true'] at h
  obtain ⟨hshown, halone⟩ := h
  cases hvalue : (Text.trimString value).isEmpty with
  | true => simp [shownText?, hkind, hvalue] at hshown
  | false =>
      have hsome : shownText? (body.endOf way) = some (.elementText, Text.trimString value) := by
        simp [shownText?, hkind, hvalue]
      obtain ⟨l, hl, hshows⟩ := exists_shows hclear hsome
      obtain ⟨hsite, htext⟩ : LiteralSite.elementText = l.site ∧ Text.trimString value = l.text := by
        simpa using hsome.symm.trans hshows.shown
      rw [hsome, Option.any_some, htext] at hshown
      have hwritten := hshows.written
      rw [← hsite] at hwritten
      obtain ⟨front, text, back, htrimmed, hfront, hback, hslice, hrange⟩ := hwritten
      exact ⟨halone, rfl, l, hl, hsite.symm, htext.symm, hshown, front, text, back,
        ⟨htrimmed, hfront, hback, hslice⟩, congrArg Span.lo hrange, congrArg Span.hi hrange⟩

/-- The white space around the text of a node is what is written there, and what the written text stands
for at its ends. -/
theorem IsCut.blanks {source : List Char} {n : Node} {front text back : List Char} {value : String}
    (h : IsCut source n.span front text back) (hclear : n.Clear (Source.Parser.sourceGap source))
    (hkind : n.kind = .jsxText value) (hvalue : (Text.trimString value).isEmpty = false) :
    leadingBlanks value.toList = joinLineEnds front ++ leadingBlanks (decode (joinLineEnds text)) ∧
      trailingBlanks value.toList =
        trailingBlanks (decode (joinLineEnds text)) ++ joinLineEnds back := by
  have hleading := Source.Parser.isBlank_of_mem_joinLineEnds h.leading
  have htrailing := Source.Parser.isBlank_of_mem_joinLineEnds h.trailing
  obtain ⟨written, hwritten, -, rfl⟩ := exists_slice_of_writes (hclear.written hkind)
  rw [h.slice] at hwritten
  subst hwritten
  rw [Source.Entity.decode_surrounded h.isTrimmed h.leading h.trailing] at hvalue ⊢
  have hkept := exists_not_blank_of_trim hleading htrailing hvalue
  rw [String.toList_ofList]
  exact ⟨leadingBlanks_surrounded hkept hleading _, trailingBlanks_surrounded hkept _ htrailing⟩

/-- Of what is written between tags just the text without the blanks around it is replaced. Where the
output of a wrapping reads as is meant, the place of the text holds the white space that is written in front
of it, the lookup in braces, and the white space that is written behind it. This is all the white space
around the text exactly if the written text itself stands for nothing that begins or ends with white
space. -/
theorem wrapSource_keeps_blanks_iff {o : WrapOptions} {path : String} {source : List Char}
    {w : WrappedSource} {module : Node} (h : wrapSource? o path source = .ok (some w))
    (hmodule : Source.parseFile path source = .ok module)
    (hback : ReadsBack o path source w.output) :
    ∃ again, Source.parseFile path w.output = .ok again ∧
      ∀ f ∈ moduleCandidates module, ∀ way, f.candidate.body.IsWay way →
        leadsToText o.classifier f.candidate.body way = true →
        ∀ value, (f.candidate.body.endOf way).kind = .jsxText value →
          ∃ parent ∈ f.candidate.body :: way, ∃ nodes front text back,
            TakePlaceOf o source w.output again parent (f.candidate.body.endOf way) nodes ∧
            IsCut source (f.candidate.body.endOf way).span front text back ∧
            ⟨(f.candidate.body.endOf way).span.lo + byteLength front,
                (f.candidate.body.endOf way).span.lo + byteLength front + byteLength text,
                LiteralSite.elementText.wrap (lookupCall
                  (o.generator.keyFor (Text.trimString value) OrderedMap.empty).1)⟩ ∈ w.changes.edits ∧
            ShowsLookup source w.output (joinLineEnds front)
              (o.generator.keyFor (Text.trimString value) OrderedMap.empty).1 (joinLineEnds back)
              nodes ∧
            (ShowsLookup source w.output (leadingBlanks value.toList)
                (o.generator.keyFor (Text.trimString value) OrderedMap.empty).1
                (trailingBlanks value.toList) nodes ↔
              leadingBlanks (decode (joinLineEnds text)) = [] ∧
                trailingBlanks (decode (joinLineEnds text)) = []) := by
  obtain ⟨module', hparse, -, hedits, -⟩ := wrapSource?_eq_some h
  rw [hmodule, Except.ok.injEq] at hparse
  subst hparse
  obtain ⟨module', again, hparse, hagain, halike⟩ := hback
  rw [hmodule, Except.ok.injEq] at hparse
  subst hparse
  refine ⟨again, hagain, ?_⟩
  intro f hf way hway hleads value hkind
  have hplaced := Source.Parser.inPlace_parseFile hmodule
  have hclear :=
    ((Source.Parser.clear_parseFile hmodule).of_mem_walk (Found.body_mem_walk hf)).endOf hway
  obtain ⟨halone, hvalue, l, hl, hsite, htext, haccepts, front, text, back, hcut, hstart, hstop⟩ :=
    exists_literal_of_leadsToText hclear hleads hkind
  obtain ⟨hchanges, hedit⟩ := replacementEdit_mem_of_mem_literals hf
    (mem_literals (inPlace_body hplaced hf) hway halone hl haccepts)
  obtain ⟨parent, hparent, nodes, hplace, hnodes⟩ := exists_takePlaceOf hplaced halike hf hchanges
    hway halone (by rw [hkind]; rfl) hl haccepts
  have hlookup := showsLookup_of_nodes o hcut hsite hnodes
  rw [replacementEdit, hstart, hstop, hsite, WrapOptions.keyOf, htext, ← hedits] at hedit
  rw [WrapOptions.keyOf, htext] at hlookup
  refine ⟨parent, hparent, nodes, front, text, back, hplace, hcut, hedit, hlookup, ?_⟩
  obtain ⟨hleading, htrailing⟩ := hcut.blanks hclear hkind hvalue
  rw [hlookup.iff, hleading, htrailing, List.append_right_eq_self, List.append_left_eq_self]

/-- A text on a line of its own, with another element behind it. -/
def spacedText : List Char :=
  "function A() \x7b return <p>\n  안녕 <b/></p>; \x7d\n".toList

/-- A text with a reference to a blank in front of it. -/
def referencedBlank : List Char :=
  "function A() \x7b return <p>&nbsp;안녕</p>; \x7d\n".toList

/-- Whether a component of a module has a text between tags, written and shown in some way, that is to be
replaced. -/
def hasElementText (o : WrapOptions) (source : List Char) (written value : String) (module : Node) :
    Bool :=
  (moduleCandidates module).any fun f => f.candidate.body.ways.any fun way =>
    let n := f.candidate.body.endOf way
    leadsToText o.classifier f.candidate.body way && n.kind == .jsxText value &&
      sliceBytes source n.span.lo n.span.hi == written.toList

theorem exists_elementText {o : WrapOptions} {source : List Char} {written value : String} {module : Node}
    (h : hasElementText o source written value module = true) :
    ∃ f ∈ moduleCandidates module, ∃ way, f.candidate.body.IsWay way ∧
      leadsToText o.classifier f.candidate.body way = true ∧
      (f.candidate.body.endOf way).kind = .jsxText value ∧
      sliceBytes source (f.candidate.body.endOf way).span.lo (f.candidate.body.endOf way).span.hi =
        written.toList := by
  obtain ⟨f, hf, hways⟩ := List.any_eq_true.mp h
  obtain ⟨way, hway, hfacts⟩ := List.any_eq_true.mp hways
  simp only [Bool.and_eq_true, beq_iff_eq] at hfacts
  exact ⟨f, hf, way, Node.mem_ways_iff.mp hway, hfacts.1.1, hfacts.1.2, hfacts.2⟩

theorem wrapSource_keeps_blanks_spacedText :
    ∃ (w : WrappedSource) (module again : Node),
      wrapSource? (koreanOptions none) "a.tsx" spacedText = .ok (some w) ∧
        Source.parseFile "a.tsx" spacedText = .ok module ∧
        ReadsBack (koreanOptions none) "a.tsx" spacedText w.output ∧
        Source.parseFile "a.tsx" w.output = .ok again ∧
        ∃ f ∈ moduleCandidates module, ∃ way, f.candidate.body.IsWay way ∧
          leadsToText (koreanOptions none).classifier f.candidate.body way = true ∧
          (f.candidate.body.endOf way).kind = .jsxText "\n  안녕 " ∧
          ∃ parent ∈ f.candidate.body :: way, ∃ nodes,
            TakePlaceOf (koreanOptions none) spacedText w.output again parent
              (f.candidate.body.endOf way) nodes ∧
            ShowsLookup spacedText w.output "\n  ".toList "안녕" " ".toList nodes := by
  obtain ⟨w, hrun, hw⟩ := exists_wrapped (koreanOptions none) "a.tsx" spacedText
    (p := fun w => (Source.parseFile "a.tsx" spacedText).toOption.any fun module =>
      (Source.parseFile "a.tsx" w.output).toOption.any fun again =>
        alike w.output spacedText again (wrappedModule (koreanOptions none) spacedText module))
    (by decide +kernel)
  obtain ⟨module, hmodule, htexts⟩ := exists_module "a.tsx" spacedText
    (p := hasElementText (koreanOptions none) spacedText "\n  안녕 " "\n  안녕 ") (by decide +kernel)
  have hback := readsBack_iff_any.mpr hw
  obtain ⟨f, hf, way, hway, hleads, hkind, hslice⟩ := exists_elementText htexts
  obtain ⟨again, hagain, htexts⟩ := wrapSource_keeps_blanks_iff hrun hmodule hback
  obtain ⟨parent, hparent, nodes, front, text, back, hplace, hcut, -, -, hiff⟩ :=
    htexts f hf way hway hleads _ hkind
  obtain ⟨hfront, hbehind⟩ := blanks_of_isTrimmed hcut.isTrimmed hcut.leading hcut.trailing
  rw [← hcut.slice, hslice] at hfront hbehind
  obtain rfl : front = "\n  ".toList := hfront.symm.trans (by decide)
  obtain rfl : back = " ".toList := hbehind.symm.trans (by decide)
  have htext : "\n  ".toList ++ text ++ " ".toList = "\n  ".toList ++ "안녕".toList ++ " ".toList :=
    hcut.slice.symm.trans (hslice.trans (by decide))
  obtain rfl := List.append_cancel_left (List.append_cancel_right htext)
  refine ⟨w, module, again, hrun, hmodule, hback, hagain, f, hf, way, hway, hleads, hkind, parent,
    hparent, nodes, hplace, ?_⟩
  exact hiff.mpr (by decide)

/-- White space around a text is not always kept: a reference to a blank is replaced with the text. -/
theorem wrapSource_not_always_keeps_blanks :
    ¬ ∀ (o : WrapOptions) (path : String) (source : List Char) (w : WrappedSource)
      (module again : Node), wrapSource? o path source = .ok (some w) →
        Source.parseFile path source = .ok module → Source.parseFile path w.output = .ok again →
        ∀ f ∈ moduleCandidates module, ∀ way, f.candidate.body.IsWay way →
          leadsToText o.classifier f.candidate.body way = true →
          ∀ value, (f.candidate.body.endOf way).kind = .jsxText value →
            ∃ parent ∈ f.candidate.body :: way, ∃ nodes,
              TakePlaceOf o source w.output again parent (f.candidate.body.endOf way) nodes ∧
              ShowsLookup source w.output (leadingBlanks value.toList)
                (o.generator.keyFor (Text.trimString value) OrderedMap.empty).1
                (trailingBlanks value.toList) nodes := by
  intro hall
  obtain ⟨w, hrun, hw⟩ := exists_wrapped (koreanOptions none) "a.tsx" referencedBlank
    (p := fun w => (Source.parseFile "a.tsx" w.output).toOption.any fun again =>
      !again.walk.any fun n => n.children.any fun part => part.kind == .jsxText "\u00a0")
    (by decide +kernel)
  obtain ⟨module, hmodule, htexts⟩ := exists_module "a.tsx" referencedBlank
    (p := hasElementText (koreanOptions none) referencedBlank "&nbsp;안녕" "\u00a0안녕")
    (by decide +kernel)
  obtain ⟨again, hagain, hnone⟩ := exists_module _ _ hw
  obtain ⟨f, hf, way, hway, hleads, hkind, -⟩ := exists_elementText htexts
  obtain ⟨parent, -, nodes, ⟨element, helement, -, left, right, before, after, -, hchildren, -, -⟩,
    shown, container, behind, rfl, hshown, -, -⟩ :=
    hall _ _ _ w module again hrun hmodule hagain f hf way hway hleads _ hkind
  have hblank : shown.map Node.kind = [.jsxText "\u00a0"] := hshown.trans (by decide)
  obtain ⟨part, rfl, hpart⟩ := List.map_eq_singleton_iff.mp hblank
  rw [Bool.not_eq_true', List.any_eq_false] at hnone
  refine hnone element helement (List.any_eq_true.mpr ⟨part, ?_, beq_iff_eq.mpr hpart⟩)
  rw [hchildren]
  simp

end Localization
