import Localization.Proofs.Component.Placed
import Localization.Proofs.Component.SameScope
import Localization.Proofs.Source.Grammar.Module
import Localization.Proofs.Source.Resolution

/-!
Which texts of a component are replaced: every text that is shown and that the classifier accepts, unless
it is left alone, and each of them once. Main statement: `edits_replace_texts`.
-/

namespace Localization

open Source (Node Kind Span)
open Text (byteLength sliceBytes isBlank)

/-! ### Texts that are shown -/

/-- The text that a node shows, and where it stands. A string without a value shows nothing, and a key
shows its text only if it has Hangul. -/
def shownText? (n : Node) : Option (LiteralSite × String) :=
  match n.kind with
  | .string (some value) => some (.expression, value)
  | .jsxString value => some (.attribute, value)
  | .keyString (some value) =>
    if Text.containsHangul value then some (.propertyKey, value) else none
  | .jsxText value =>
    if (Text.trimString value).isEmpty then none else some (.elementText, Text.trimString value)
  | _ => none

/-- Whether a way from a statement leads to the string that is the whole of it. -/
def isStatementText (n : Node) : List Node → Bool
  | [s] => n.kind == .expressionStatement && s.isString
  | _ => false

/-- Whether a way from an argument leads to the string that is the whole of it. -/
def isArgumentText (n : Node) (way : List Node) : Bool :=
  match n.kind, way with
  | .argument _, [s] => s.isString
  | _, _ => false

/-- Whether a way from a call of the lookup function leads to a string that is one of its arguments. -/
def isLookupText (n : Node) : List Node → Bool
  | argument :: way => Literal.isLookupCall n.kind n.children && isArgumentText argument way
  | [] => false

/-- Whether the text at the end of a way is left alone: it stands in a type, it is a statement of its own,
or it is a key in a call of the lookup function. -/
def isLeftAlone : List Node → Bool
  | [] => false
  | n :: way => n.kind == .type || isStatementText n way || isLookupText n way || isLeftAlone way

/-! ### What is collected -/

/-- Whether a walk comes to the end of a way; `translated` says that the way begins in a call of the lookup
function. -/
def isReached (translated : Bool) (n : Node) (way : List Node) : Bool :=
  !(isLeftAlone (n :: way) || (translated && isArgumentText n way))

theorem children_of_isString {s : Node} (hs : s.InPlace) (hstring : s.isString = true) :
    s.children = [] := by
  apply hs.children_eq_nil
  rw [Node.isString] at hstring
  split at hstring
  · next hkind =>
      rw [hkind]
      rfl
  · contradiction

theorem way_of_isString {s : Node} {way : List Node} (hs : s.InPlace) (hstring : s.isString = true)
    (hway : s.IsWay way) : way = [] := by
  cases way with
  | nil => rfl
  | cons part rest =>
      have hpart := hway.1
      rw [children_of_isString hs hstring] at hpart
      contradiction

/-- A statement of an expression or an argument has one part. -/
theorem children_of_isWrapper {n part : Node} (hn : n.InPlace) (hwrapper : n.kind.isWrapper = true)
    (hpart : part ∈ n.children) : n.children = [part] := by
  have hlength := hn.length_children_le hwrapper
  cases hchildren : n.children with
  | nil =>
      rw [hchildren] at hpart
      contradiction
  | cons first rest =>
      rw [hchildren] at hpart hlength
      obtain rfl : rest = [] := List.length_eq_zero_iff.mp (Nat.le_zero.mp (Nat.le_of_succ_le_succ hlength))
      rw [List.mem_singleton.mp hpart]

theorem isStatementText_iff {n part : Node} {way : List Node} (hn : n.InPlace)
    (hpart : part ∈ n.children) (hway : part.IsWay way) : isStatementText n (part :: way) = true ↔
      (n.kind == .expressionStatement && n.children.any Node.isString) = true := by
  simp only [Bool.and_eq_true, beq_iff_eq]
  constructor
  · intro h
    cases way with
    | nil =>
        obtain ⟨hkind, hstring⟩ := Bool.and_eq_true_iff.mp h
        exact ⟨beq_iff_eq.mp hkind, List.any_eq_true.mpr ⟨part, hpart, hstring⟩⟩
    | cons next rest => exact absurd h Bool.false_ne_true
  · rintro ⟨hkind, hany⟩
    have hchildren := children_of_isWrapper hn (by rw [hkind]; rfl) hpart
    have hstring : part.isString = true := by simpa [hchildren] using hany
    obtain rfl := way_of_isString (hn.child hpart) hstring hway
    simp [isStatementText, hkind, hstring]

theorem isArgumentText_iff {n part : Node} {way : List Node} (hn : n.InPlace)
    (hpart : part ∈ n.children) (hway : part.IsWay way) : isArgumentText n (part :: way) = true ↔
      Literal.isStringArgument n.kind n.children = true := by
  cases hkind : n.kind with
  | argument isSpread =>
      have hchildren := children_of_isWrapper hn (by rw [hkind]; rfl) hpart
      rw [hchildren]
      constructor
      · intro h
        cases way with
        | nil => simpa [isArgumentText, Literal.isStringArgument, hkind] using h
        | cons next rest => simp [isArgumentText, hkind] at h
      · intro hstring
        obtain rfl := way_of_isString (hn.child hpart) hstring hway
        simpa [isArgumentText, Literal.isStringArgument, hkind] using hstring
  | _ => simp [isArgumentText, hkind, Literal.isStringArgument]

/-- A part that is not left alone by the node around it is reached as if its walk began there. -/
theorem isReached_cons {translated : Bool} {n part : Node} {way : List Node}
    (htype : n.kind ≠ .type) (hstatement : isStatementText n (part :: way) = false)
    (hargument : (translated && isArgumentText n (part :: way)) = false) :
    isReached translated n (part :: way) =
      isReached (Literal.isLookupCall n.kind n.children) part way := by
  rw [isReached, isReached, hargument, isLeftAlone, beq_eq_false_iff_ne.mpr htype, hstatement,
    isLookupText, Bool.or_false, Bool.false_or, Bool.false_or, Bool.or_comm]

theorem isReached_nil {n : Node} (htype : n.kind ≠ .type) (translated : Bool) :
    isReached translated n [] = true := by
  have hargument : isArgumentText n [] = false := by
    cases hkind : n.kind <;> simp [isArgumentText, hkind]
  rw [isReached, hargument, isLeftAlone, beq_eq_false_iff_ne.mpr htype]
  simp [isStatementText, isLookupText, isLeftAlone]

/-- The ways that a walk comes to in the parts of a node. -/
theorem filterMap_ways_of_none {source : List Char} {translated : Bool} {n : Node}
    (h : Literal.ofNode? source n = none) :
    ((n.ways.filter (isReached translated n)).filterMap fun way =>
        Literal.ofNode? source (n.endOf way)) =
      n.children.flatMap fun part =>
        (part.ways.filter fun way => isReached translated n (part :: way)).filterMap fun way =>
          Literal.ofNode? source (part.endOf way) := by
  cases n with
  | mk kind span children =>
      have hparts (reached : List Node → Bool) :
          ((([] : List Node) :: Node.waysAll children).filter reached).filterMap
              (fun way => Literal.ofNode? source ((Node.mk kind span children).endOf way)) =
            ((Node.waysAll children).filter reached).filterMap
              fun way => Literal.ofNode? source ((Node.mk kind span children).endOf way) := by
        rw [List.filter_cons]
        split
        · exact List.filterMap_cons_none h
        · rfl
      rw [Node.ways, hparts, Node.waysAll_eq_flatMap, List.filter_flatMap, List.filterMap_flatMap]
      simp only [List.filter_map, List.filterMap_map]
      rfl

/-- Nothing is collected in a node if no walk comes to what stands in its parts. -/
theorem flatMap_eq_nil_of_not_reached {source : List Char} {translated : Bool} {n : Node}
    (h : ∀ part ∈ n.children, ∀ way, part.IsWay way → isReached translated n (part :: way) = false) :
    (n.children.flatMap fun part =>
      (part.ways.filter fun way => isReached translated n (part :: way)).filterMap fun way =>
        Literal.ofNode? source (part.endOf way)) = [] := by
  refine List.flatMap_eq_nil_iff.mpr fun part hpart => ?_
  have hnone : part.ways.filter (fun way => isReached translated n (part :: way)) = [] := by
    refine List.filter_eq_nil_iff.mpr fun way hway => ?_
    rw [h part hpart way (Node.mem_ways_iff.mp hway)]
    exact Bool.false_ne_true
  rw [hnone]
  rfl

/-- What a walk collects are the literals at the ends of the ways that it comes to. -/
theorem collect_eq_filterMap (source : List Char) : ∀ (translated : Bool) (n : Node), n.InPlace →
    Literal.collect source translated n =
      (n.ways.filter (isReached translated n)).filterMap fun way =>
        Literal.ofNode? source (n.endOf way)
  | translated, .mk kind span children, hn => by
      rw [Literal.collect]
      cases hliteral : Literal.ofNode? source (.mk kind span children) with
      | some l =>
          have htext := Literal.isText_of_ofNode? hliteral
          have htype : kind ≠ .type := by
            rintro rfl
            contradiction
          -- A text has no parts, so that the way of no steps is the only one.
          obtain rfl : children = [] := hn.children_eq_nil htext
          have hreached := isReached_nil (n := .mk kind span []) htype translated
          simp [Node.ways, Node.waysAll, hreached, hliteral]
      | none =>
          rw [filterMap_ways_of_none hliteral]
          dsimp only
          split
          · next htype =>
              refine (flatMap_eq_nil_of_not_reached fun part hpart way hway => ?_).symm
              simp [isReached, isLeftAlone, htype]
          · next htype =>
              have hstatement {part : Node} (hpart : part ∈ children) {way : List Node}
                  (hway : part.IsWay way) := isStatementText_iff hn hpart hway
              have hargument {part : Node} (hpart : part ∈ children) {way : List Node}
                  (hway : part.IsWay way) := isArgumentText_iff hn hpart hway
              split
              · next h =>
                  refine (flatMap_eq_nil_of_not_reached fun part hpart way hway => ?_).symm
                  simp [isReached, isLeftAlone, (hstatement hpart hway).mpr h]
              · next hnot =>
                  split
                  · next h =>
                      obtain ⟨rfl, h⟩ := Bool.and_eq_true_iff.mp h
                      refine (flatMap_eq_nil_of_not_reached fun part hpart way hway => ?_).symm
                      simp [isReached, (hargument hpart hway).mpr h]
                  · next hnot' =>
                      rw [Literal.collectAll_eq_flatMap]
                      refine List.flatMap_congr fun part hpart => ?_
                      rw [collect_eq_filterMap source _ part (hn.child hpart)]
                      refine congrArg _ (List.filter_congr fun way hway => ?_)
                      have hway := Node.mem_ways_iff.mp hway
                      refine (isReached_cons (n := .mk kind span children) ?_ ?_ ?_).symm
                      · exact fun hkind => htype (beq_iff_eq.mpr hkind)
                      · exact Bool.eq_false_iff.mpr fun h => hnot ((hstatement hpart hway).mp h)
                      · refine Bool.eq_false_iff.mpr fun h => hnot' ?_
                        obtain ⟨htranslated, h⟩ := Bool.and_eq_true_iff.mp h
                        exact Bool.and_eq_true_iff.mpr ⟨htranslated, (hargument hpart hway).mp h⟩

/-! ### Where a text is written -/

/-- The bytes where the text of a node is written: those of the node or, between tags, those of what is
written there without the blanks at its ends. -/
def IsWrittenAt (source : List Char) (span range : Span) : LiteralSite → Prop
  | .elementText => ∃ front text back, Text.IsTrimmed text ∧ (∀ c ∈ front, isBlank c = true) ∧
      (∀ c ∈ back, isBlank c = true) ∧ sliceBytes source span.lo span.hi = front ++ text ++ back ∧
        range = ⟨span.lo + byteLength front, span.lo + byteLength front + byteLength text⟩
  | _ => range = span

/-- A literal is the text that a node shows. -/
structure Literal.Shows (source : List Char) (n : Node) (l : Literal) : Prop where
  shown : shownText? n = some (l.site, l.text)
  written : IsWrittenAt source n.span l.range l.site

theorem decode_of_noReference {cs : List Char} (h : ∀ c ∈ cs, c ≠ '&') :
    Source.Entity.decode cs = cs := by
  rw [Source.Entity.decode]
  induction cs with
  | nil => rfl
  | cons c rest ih =>
      rw [Source.Entity.decodeFrom, if_neg (h c List.mem_cons_self),
        ih fun d hd => h d (List.mem_cons_of_mem c hd)]

/-- What stands between tags shows something only if something that is not blank is written there. -/
theorem exists_not_blank {text : List Char} (h : (Text.trimString
    (String.ofList (Source.Entity.decode (Source.Parser.joinLineEnds text)))).isEmpty = false) :
    ∃ c ∈ text, isBlank c = false := by
  by_contra hnone
  have hblank : ∀ c ∈ Source.Parser.joinLineEnds text, isBlank c = true :=
    Source.Parser.isBlank_of_mem_joinLineEnds fun c hc =>
      Bool.not_eq_false _ ▸ fun hkept => hnone ⟨c, hc, hkept⟩
  have hreference : ∀ c ∈ Source.Parser.joinLineEnds text, c ≠ '&' := by
    rintro c hc rfl
    exact absurd (hblank _ hc) (by decide)
  rw [decode_of_noReference hreference, Text.trimString, String.toList_ofList,
    Text.trim_of_blank hblank] at h
  contradiction

/-- What a text between tags was read from. -/
theorem exists_slice_of_writes {source : List Char} {span : Span} {value : String}
    (h : (Source.Parser.sourceGap source).Writes span value) :
    ∃ text, sliceBytes source span.lo span.hi = text ∧ span.hi = span.lo + byteLength text ∧
      value = String.ofList (Source.Entity.decode (Source.Parser.joinLineEnds text)) := by
  obtain ⟨p, q, text, ⟨before, ⟨hsource, hoffset⟩, -⟩, ⟨hrest, hstop⟩, rfl, rfl⟩ := h
  refine ⟨text, ?_, hstop, rfl⟩
  dsimp only at hsource hoffset ⊢
  rw [hsource, hrest, hstop, hoffset, Nat.zero_add, sliceBytes, Text.splitAtByte_append]
  simp [Text.splitAtByte_append]

theorem exists_shows_elementText {source : List Char} {span : Span} {value : String}
    (h : (Source.Parser.sourceGap source).Writes span value)
    (hvalue : (Text.trimString value).isEmpty = false) :
    ∃ l, Literal.ofElementText? source span value = some l ∧ l.site = .elementText ∧
      l.text = Text.trimString value ∧ IsWrittenAt source span l.range .elementText := by
  obtain ⟨written, hslice, hstop, rfl⟩ := exists_slice_of_writes h
  obtain ⟨front, text, back, htext, hfront, hback, hwritten, hleft, hright⟩ :=
    Text.exists_isTrimmed (exists_not_blank hvalue)
  have hlength : 0 < byteLength text :=
    Nat.pos_of_ne_zero fun hzero => htext.nonempty (Text.byteLength_eq_zero.mp hzero)
  have hbytes : byteLength written = byteLength front + byteLength text + byteLength back := by
    rw [hwritten, Text.byteLength_append, Text.byteLength_append]
  have hstart : span.lo + (byteLength written - byteLength (text ++ back)) =
      span.lo + byteLength front := by
    rw [Text.byteLength_append]
    omega
  have hend : span.hi - (byteLength written - byteLength (front ++ text)) =
      span.lo + byteLength front + byteLength text := by
    rw [Text.byteLength_append]
    omega
  refine ⟨⟨Text.trimString _, .elementText, span.lo, span.lo + byteLength front,
    span.lo + byteLength front + byteLength text⟩, ?_, rfl, rfl,
    front, text, back, htext, hfront, hback, hslice.trans hwritten, rfl⟩
  rw [Literal.ofElementText?, hvalue, hslice, hleft, hright, hstart, hend, if_neg ?_]
  simp only [Bool.false_or, decide_eq_true_eq]
  omega

theorem exists_shows {source : List Char} {n : Node} {shown : LiteralSite × String}
    (hn : n.Clear (Source.Parser.sourceGap source)) (h : shownText? n = some shown) :
    ∃ l, Literal.ofNode? source n = some l ∧ l.Shows source n := by
  have hshown := h
  rw [shownText?] at h
  split at h
  · next value hkind =>
      obtain rfl := Option.some.inj h
      exact ⟨.ofString .expression n.span value, by rw [Literal.ofNode?, hkind], hshown, rfl⟩
  · next value hkind =>
      obtain rfl := Option.some.inj h
      exact ⟨.ofString .attribute n.span value, by rw [Literal.ofNode?, hkind], hshown, rfl⟩
  · next value hkind =>
      split at h
      · next hangul =>
          obtain rfl := Option.some.inj h
          refine ⟨.ofString .propertyKey n.span value, ?_, hshown, rfl⟩
          rw [Literal.ofNode?, hkind]
          exact if_pos hangul
      · contradiction
  · next value hkind =>
      split at h
      · contradiction
      · next hvalue =>
          obtain rfl := Option.some.inj h
          obtain ⟨l, hl, hsite, htext, hwritten⟩ :=
            exists_shows_elementText (hn.written hkind) (Bool.eq_false_iff.mpr hvalue)
          refine ⟨l, by rw [Literal.ofNode?, hkind]; exact hl, ?_, ?_⟩
          · rw [hshown, hsite, htext]
          · rw [hsite]
            exact hwritten
  · contradiction

theorem ofNode?_eq_none {source : List Char} {n : Node} (h : shownText? n = none) :
    Literal.ofNode? source n = none := by
  rw [shownText?] at h
  split at h
  · contradiction
  · contradiction
  · next value hkind =>
      split at h
      · contradiction
      · next hangul =>
          rw [Literal.ofNode?, hkind]
          exact if_neg hangul
  · next value hkind =>
      split at h
      · next hvalue => simp [Literal.ofNode?, hkind, Literal.ofElementText?, hvalue]
      · contradiction
  · next hstring hattribute hkey helement =>
      rw [Literal.ofNode?]
      split
      · next value hkind => exact absurd hkind (hstring value)
      · next value hkind => exact absurd hkind (hattribute value)
      · next value hkind => exact absurd hkind (hkey value)
      · next value hkind => exact absurd hkind (helement value)
      · rfl

/-! ### What is replaced -/

/-- Whether a way from a body leads to a text that is to be replaced. -/
def leadsToText (classifier : Classifier) (body : Node) (way : List Node) : Bool :=
  (shownText? (body.endOf way)).any (fun shown => classifier.accepts shown.2) &&
    !isLeftAlone (body :: way)

/-- The edit that puts a lookup in the place of the text that a node shows. -/
def Replaces (o : WrapOptions) (source : List Char) (n : Node) (e : Edit) : Prop :=
  ∃ site text, shownText? n = some (site, text) ∧ IsWrittenAt source n.span e.range site ∧
    e.text = site.wrap (lookupCall (o.generator.keyFor text OrderedMap.empty).1)

theorem forall₂_filterMap {α β : Type} {p : α → Bool} {f : α → Option β} {R : α → β → Prop}
    {items : List α} (hsome : ∀ a ∈ items, p a = true → ∃ b, f a = some b ∧ R a b)
    (hnone : ∀ a ∈ items, p a = false → f a = none) :
    List.Forall₂ R (items.filter p) (items.filterMap f) := by
  induction items with
  | nil => exact .nil
  | cons a rest ih =>
      have hrest := ih (fun b hb => hsome b (List.mem_cons_of_mem a hb))
        fun b hb => hnone b (List.mem_cons_of_mem a hb)
      cases ha : p a with
      | false =>
          rw [List.filter_cons_of_neg (by simp [ha]), List.filterMap_cons_none (hnone a List.mem_cons_self ha)]
          exact hrest
      | true =>
          obtain ⟨b, hb, hR⟩ := hsome a List.mem_cons_self ha
          rw [List.filter_cons_of_pos ha, List.filterMap_cons_some hb]
          exact .cons hR hrest

/-- The literals of a body are those at the ends of its ways that are not left alone. -/
theorem literals_eq_filterMap {c : Candidate} (hbody : c.body.InPlace) (source : List Char)
    (classifier : Classifier) : c.literals source classifier = c.body.ways.filterMap fun way =>
      (if !isLeftAlone (c.body :: way) then Literal.ofNode? source (c.body.endOf way) else none).filter
        fun l => classifier.accepts l.text := by
  have hreached (way : List Node) : isReached false c.body way = !isLeftAlone (c.body :: way) := by
    simp [isReached]
  rw [Candidate.literals, collect_eq_filterMap source false c.body hbody, List.filterMap_filter,
    List.filter_filterMap]
  simp only [hreached]

/-- The literals of a body are the texts that ways lead to, one for each way. -/
theorem forall₂_literals {source : List Char} {c : Candidate} (hbody : c.body.InPlace)
    (hclear : c.body.Clear (Source.Parser.sourceGap source)) (classifier : Classifier) :
    List.Forall₂ (fun way l => l.Shows source (c.body.endOf way))
      (c.body.ways.filter (leadsToText classifier c.body)) (c.literals source classifier) := by
  rw [literals_eq_filterMap hbody]
  refine forall₂_filterMap (fun way hway hleads => ?_) fun way hway hleads => ?_
  · cases hshown : shownText? (c.body.endOf way) with
    | none => simp [leadsToText, hshown] at hleads
    | some shown =>
        obtain ⟨l, hl, hshows⟩ := exists_shows (hclear.endOf (Node.mem_ways_iff.mp hway)) hshown
        simp only [leadsToText, hshows.shown, Option.any_some, Bool.and_eq_true] at hleads
        refine ⟨l, ?_, hshows⟩
        rw [if_pos hleads.2, hl]
        exact if_pos hleads.1
  · cases hshown : shownText? (c.body.endOf way) with
    | none => rw [ofNode?_eq_none hshown, ite_self, Option.filter_none]
    | some shown =>
        obtain ⟨l, hl, hshows⟩ := exists_shows (hclear.endOf (Node.mem_ways_iff.mp hway)) hshown
        rw [leadsToText, hshows.shown, Option.any_some, Bool.and_eq_false_iff] at hleads
        rcases hleads with hrefused | halone
        · rw [hl]
          split
          · exact if_neg (Bool.eq_false_iff.mp hrefused)
          · rfl
        · rw [if_neg (Bool.eq_false_iff.mp halone), Option.filter_none]

/-- In the body of each component of a source, exactly the texts that are shown, that the classifier
accepts and that are not left alone are replaced, in the order of a walk and each of them once. Besides
these replacements only the hook is written there. -/
theorem edits_replace_texts {path : String} {source : List Char} {module : Node} {f : Found}
    (hmodule : Source.parseFile path source = .ok module) (hf : f ∈ moduleCandidates module)
    (o : WrapOptions) : ∃ replacements,
      List.Forall₂ (fun way e => Replaces o source (f.candidate.body.endOf way) e)
        (f.candidate.body.ways.filter (leadsToText o.classifier f.candidate.body)) replacements ∧
      f.edits o source = replacements ++ f.hookEdits source o.space ∧
      (replacements ≠ [] → f.edits o source <:+: (wrapModule o source module).edits) := by
  have hbody := Found.body_mem_walk hf
  have hplace := (Source.Parser.inPlace_parseFile hmodule).of_mem_walk hbody
  have hclear := (Source.Parser.clear_parseFile hmodule).of_mem_walk hbody
  refine ⟨_, List.forall₂_map_right_iff.mpr ?_, rfl, fun hne => ?_⟩
  · refine (forall₂_literals hplace hclear o.classifier).imp fun way l hl => ?_
    exact ⟨l.site, l.text, hl.shown, hl.written, rfl⟩
  · have hchanges : f.changes o source = true := by
      rw [Found.changes, Bool.not_eq_true', List.isEmpty_eq_false_iff]
      exact fun hnil => hne (List.map_eq_nil_iff.mpr hnil)
    have hmem : f ∈ (moduleCandidates module).filter fun f => f.changes o source :=
      List.mem_filter.mpr ⟨hf, hchanges⟩
    obtain ⟨before, after, hchanged⟩ := List.append_of_mem hmem
    refine ⟨before.flatMap fun f => f.edits o source, after.flatMap fun f => f.edits o source, ?_⟩
    rw [edits_wrapModule, hchanged, List.flatMap_append, List.flatMap_cons, List.append_assoc]

/-- A component with texts at each site, and with a text that is left alone in each way. -/
def mixedTexts : List Char :=
  ("function A() \x7b \"지시\"; const m: \"종류\" = \x7b \"제목\": \"값\" \x7d; " ++
    "return <p title=\"이름\"> 안녕 \x7bt(\"인사\")\x7d </p>; \x7d\n").toList

theorem edits_replace_texts_mixedTexts : ∃ (module : Node) (f : Found) (replacements : List Edit),
    Source.parseFile "a.tsx" mixedTexts = .ok module ∧ f ∈ moduleCandidates module ∧
      List.Forall₂ (fun way e => Replaces (koreanOptions none) mixedTexts (f.candidate.body.endOf way) e)
        (f.candidate.body.ways.filter
          (leadsToText (koreanOptions none).classifier f.candidate.body)) replacements ∧
      replacements.length = 4 ∧
      (f.edits (koreanOptions none) mixedTexts).map Edit.text =
        ["[t(\"제목\")]", "t(\"값\")", "\x7bt(\"이름\")\x7d", "\x7bt(\"안녕\")\x7d",
          " const \x7b t \x7d = useTranslation();"] := by
  obtain ⟨module, hmodule, hfound⟩ := exists_module "a.tsx" mixedTexts
    (p := fun module => (moduleCandidates module).any fun f =>
      (f.candidate.body.ways.filter
        (leadsToText (koreanOptions none).classifier f.candidate.body)).length == 4 &&
      (f.edits (koreanOptions none) mixedTexts).map Edit.text ==
        ["[t(\"제목\")]", "t(\"값\")", "\x7bt(\"이름\")\x7d", "\x7bt(\"안녕\")\x7d",
          " const \x7b t \x7d = useTranslation();"]) (by decide +kernel)
  obtain ⟨f, hf, hfacts⟩ := List.any_eq_true.mp hfound
  rw [Bool.and_eq_true, beq_iff_eq, beq_iff_eq] at hfacts
  obtain ⟨replacements, hreplaces, -⟩ := edits_replace_texts hmodule hf (koreanOptions none)
  exact ⟨module, f, replacements, hmodule, hf, hreplaces, hreplaces.length_eq ▸ hfacts.1, hfacts.2⟩

end Localization
