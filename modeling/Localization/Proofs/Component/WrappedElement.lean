import Localization.Proofs.Component.Complete
import Localization.Proofs.Component.KeptKeys

/-!
Elements in a wrapped component. Each element whose texts may be replaced has a counterpart in the output,
and in the place of a text between its tags there are the nodes that the text becomes. Main statement:
`exists_takePlaceOf`.
-/

namespace Localization

open Source (Node Kind Span ScopeStack)

section

variable {first second : List Char}

theorem exists_append_of_alikeAll {nodes front back : List Node}
    (h : alikeAll first second nodes (front ++ back) = true) :
    ∃ before after, nodes = before ++ after ∧ alikeAll first second before front = true ∧
      alikeAll first second after back = true := by
  induction front generalizing nodes with
  | nil => exact ⟨[], nodes, rfl, rfl, h⟩
  | cons part rest ih =>
      cases nodes with
      | nil => simp [alikeAll] at h
      | cons n more =>
          rw [List.cons_append, alikeAll, Bool.and_eq_true] at h
          obtain ⟨before, after, rfl, hbefore, hafter⟩ := ih h.2
          refine ⟨n :: before, after, rfl, ?_, hafter⟩
          rw [alikeAll, h.1, hbefore]
          rfl

end

/-- No function is an element, so that the body of a component is no text between tags. -/
theorem isElement_of_named {n g : Node} {name : String} (hn : n.InPlace) (hnamed : NamesFunction n name g) :
    g.kind.isElement = false := by
  have hfunction : ∀ {g : Node}, g.kind.isFunction = true → g.kind.isElement = false := by
    intro g hg
    cases hkind : g.kind <;> first | rfl | (rw [hkind] at hg; contradiction)
  cases hnamed with
  | declaration span binder _ _ hname => exact hfunction (hn.isFunction_last rfl rfl)
  | defaultExport span inner binder _ _ hname =>
      exact hfunction ((hn.child (List.mem_singleton_self _)).isFunction_last rfl rfl)
  | value span inner types _ value isAsync harrow =>
      rw [harrow]
      rfl

theorem notText_body {module : Node} {f : Found} (hmodule : module.InPlace)
    (hf : f ∈ moduleCandidates module) : f.candidate.body.kind.isElementText = false := by
  obtain ⟨n, hn, hnode⟩ := exists_node_of_mem_moduleCandidates hf
  obtain ⟨g, hnamed, -, hbody, -⟩ := exists_function_of_ofNode? hnode
  have hplaced := hmodule.of_mem_walk hn
  obtain ⟨way, hway, rfl⟩ := hnamed.exists_way
  exact ((hplaced.endOf hway).isPart_child (isElement_of_named hplaced hnamed)
    (List.mem_of_find?_eq_some hbody)).notText

section

variable (o : WrapOptions) (source : List Char)

theorem wrapTexts_of_isElement (translated : Bool) {n : Node} (h : n.kind.isElement = true) :
    wrapTexts o source translated n =
      [.mk n.kind n.span (wrapTextsAll o source false n.children)] := by
  obtain ⟨kind, span, children⟩ := n
  cases kind with
  | jsxElement => cases translated <;> rfl
  | jsxFragment => cases translated <;> rfl
  | _ => contradiction

/-- Where a walk goes on into a part of a node, the texts in the parts of the node are wrapped. -/
theorem wrapTexts_of_isReached {translated : Bool} {n part : Node} {way : List Node} (hn : n.InPlace)
    (hway : n.IsWay (part :: way)) (h : isReached translated n (part :: way) = true) :
    wrapTexts o source translated n =
        [.mk n.kind n.span
          (wrapTextsAll o source (Literal.isLookupCall n.kind n.children) n.children)] ∧
      isReached (Literal.isLookupCall n.kind n.children) part way = true := by
  have hparts := h
  rw [isReached, isLeftAlone] at hparts
  simp only [Bool.not_eq_true', Bool.or_eq_false_iff, beq_eq_false_iff_ne] at hparts
  obtain ⟨⟨⟨⟨htype, hstatement⟩, -⟩, -⟩, hargument⟩ := hparts
  constructor
  · obtain ⟨kind, span, children⟩ := n
    have hnone : Literal.ofNode? source (.mk kind span children) = none := by
      rw [Option.eq_none_iff_forall_ne_some]
      intro l hl
      have hpart := hway.1
      rw [hn.children_eq_nil (Literal.isText_of_ofNode? hl)] at hpart
      exact absurd hpart List.not_mem_nil
    have hkind : ¬(kind == .type) = true := mt beq_iff_eq.mp htype
    have hexpression : ¬(kind == .expressionStatement && children.any Node.isString) = true :=
      (isStatementText_iff hn hway.1 hway.2).not.mp (Bool.eq_false_iff.mp hstatement)
    have hstring : ¬(translated && Literal.isStringArgument kind children) = true := by
      intro hboth
      obtain ⟨rfl, hlone⟩ := Bool.and_eq_true_iff.mp hboth
      rw [(isArgumentText_iff hn hway.1 hway.2).mpr hlone] at hargument
      contradiction
    rw [wrapTexts, hnone]
    dsimp only
    rw [if_neg hkind, if_neg hexpression, if_neg hstring]
    rfl
  · rw [← isReached_cons htype hstatement hargument]
    exact h

/-- Each element on a way that is not left alone has its parts wrapped. -/
theorem mem_walkAll_wrapTexts {translated : Bool} {n part : Node} {above : List Node} (hn : n.InPlace)
    (hway : n.IsWay (above ++ [part])) (h : isReached translated n (above ++ [part]) = true)
    (helement : (n.endOf above).kind.isElement = true) :
    .mk (n.endOf above).kind (n.endOf above).span
        (wrapTextsAll o source false (n.endOf above).children) ∈
      Node.walkAll (wrapTexts o source translated n) := by
  induction above generalizing translated n with
  | nil =>
      rw [Node.endOf_nil] at helement ⊢
      rw [wrapTexts_of_isElement o source translated helement]
      exact List.mem_append_left _ (Node.mem_walk_self _)
  | cons first rest ih =>
      obtain ⟨hwrapped, hreached⟩ := wrapTexts_of_isReached o source hn hway h
      have hbelow := ih (hn.child hway.1) hway.2 hreached helement
      rw [hwrapped, Node.walkAll_eq_flatMap, List.flatMap_singleton]
      rw [Node.walkAll_eq_flatMap] at hbelow
      obtain ⟨m, hm, hinside⟩ := List.mem_flatMap.mp hbelow
      refine Node.mem_walk_of_child ?_ hinside
      rw [Node.children_mk, wrapTextsAll_eq_flatMap]
      exact List.mem_flatMap.mpr ⟨first, hway.1, hm⟩

/-- What is in the wrapped body of a component is in the wrapped tree. -/
theorem mem_walk_wrapCandidates : ∀ (scopes : ScopeStack) (n m : Node) (f : Found),
    f ∈ findCandidates scopes n → f.changes o source = true →
      m ∈ Node.walkAll (f.wrappedBody o source) → m ∈ (wrapCandidates o source scopes n).walk
  | scopes, .mk kind span children, m, f, hf, hchanges, hm => by
      cases hc : Candidate.ofNode? (.mk kind span children) with
      | some c =>
          simp only [findCandidates, hc, List.mem_singleton] at hf
          subst hf
          have hempty : (c.literals source o.classifier).isEmpty = false := by
            simpa [Found.changes] using hchanges
          obtain ⟨g, hnamed, -, hbody, -⟩ := exists_function_of_ofNode? hc
          simp only [wrapCandidates, hc, hempty]
          exact mem_walk_withCandidateBody_of_mem hnamed hbody hm
      | none =>
          simp only [findCandidates, hc] at hf
          split at hf
          · simp at hf
          · next htype =>
              rw [findCandidatesAll_eq_flatMap] at hf
              obtain ⟨part, hpart, hfound⟩ := List.mem_flatMap.mp hf
              rw [wrapCandidates_of_none o source hc (by simpa using htype), wrapCandidatesAll_eq_map]
              exact Node.mem_walk_of_child (List.mem_map_of_mem hpart)
                (mem_walk_wrapCandidates _ part m f hfound hchanges hm)

theorem mem_walk_wrappedModule {module m : Node} {f : Found} (hf : f ∈ moduleCandidates module)
    (hchanges : f.changes o source = true) (hm : m ∈ Node.walkAll (f.wrappedBody o source))
    (himport : ∀ space, isValueImportFrom space m = false) :
    m ∈ (wrappedModule o source module).walk := by
  rw [moduleCandidates, findCandidatesAll_eq_flatMap] at hf
  obtain ⟨item, hitem, hfound⟩ := List.mem_flatMap.mp hf
  have hwrapped : m ∈ Node.walkAll (wrapCandidatesAll o source
      (ScopeStack.empty.declare (Node.moduleNames module.children)) module.children) := by
    rw [Node.walkAll_eq_flatMap, wrapCandidatesAll_eq_map]
    exact List.mem_flatMap.mpr
      ⟨_, List.mem_map_of_mem hitem, mem_walk_wrapCandidates o source _ item m f hfound hchanges hm⟩
  refine List.mem_cons_of_mem _ ?_
  split
  · exact hwrapped
  · exact mem_walk_withHookImport hwrapped himport

end

/-- The nodes of an output that are in the place of a part of an element: the element is there, and its
other parts are what the other parts of the old one become. -/
def TakePlaceOf (o : WrapOptions) (source output : List Char) (again parent part : Node)
    (nodes : List Node) : Prop :=
  ∃ element ∈ again.walk, element.kind = parent.kind ∧ ∃ left right before after,
    parent.children = left ++ part :: right ∧ element.children = before ++ (nodes ++ after) ∧
      alikeAll output source before (wrapTextsAll o source false left) = true ∧
      alikeAll output source after (wrapTextsAll o source false right) = true

theorem kind_ne_of_isElement {kind other : Kind} (h : kind.isElement = true)
    (hother : other.isElement = false) : kind ≠ other := by
  rintro rfl
  rw [hother] at h
  contradiction

theorem isWay_of_append {n : Node} {above below : List Node} (h : n.IsWay (above ++ below)) :
    n.IsWay above ∧ (n.endOf above).IsWay below := by
  induction above generalizing n with
  | nil => exact ⟨trivial, h⟩
  | cons part rest ih =>
      obtain ⟨hrest, hbelow⟩ := ih h.2
      exact ⟨⟨h.1, hrest⟩, hbelow⟩

/-- A text between tags stands in an element. -/
theorem exists_element_above {n : Node} {way : List Node} (hn : n.InPlace)
    (hnot : n.kind.isElementText = false) (hway : n.IsWay way)
    (htext : (n.endOf way).kind.isElementText = true) :
    ∃ above, way = above ++ [n.endOf way] ∧ n.IsWay above ∧
      n.endOf way ∈ (n.endOf above).children ∧ (n.endOf above).kind.isElement = true := by
  rcases List.eq_nil_or_concat way with rfl | ⟨above, part, rfl⟩
  · rw [Node.endOf_nil, hnot] at htext
    contradiction
  · rw [List.concat_eq_append] at *
    obtain ⟨habove, hpart, -⟩ := isWay_of_append hway
    have hend : n.endOf (above ++ [part]) = part := by simp
    rw [hend] at htext ⊢
    refine ⟨above, rfl, habove, hpart, ?_⟩
    by_contra helement
    have hplain := (hn.endOf habove).isPart_child (Bool.eq_false_iff.mpr helement) hpart
    rw [hplain.notText] at htext
    contradiction

/-- A text that is to be replaced stands in an element of which the output has a counterpart. -/
theorem exists_takePlaceOf {o : WrapOptions} {source output : List Char} {module again : Node}
    {f : Found} {way : List Node} {l : Literal} (hmodule : module.InPlace)
    (halike : alike output source again (wrappedModule o source module) = true)
    (hf : f ∈ moduleCandidates module) (hchanges : f.changes o source = true)
    (hway : f.candidate.body.IsWay way) (halone : isLeftAlone (f.candidate.body :: way) = false)
    (htext : (f.candidate.body.endOf way).kind.isElementText = true)
    (hl : Literal.ofNode? source (f.candidate.body.endOf way) = some l)
    (haccepts : o.classifier.accepts l.text = true) :
    ∃ parent ∈ f.candidate.body :: way, ∃ nodes,
      TakePlaceOf o source output again parent (f.candidate.body.endOf way) nodes ∧
      alikeAll output source nodes
        (l.nodes o.generator source (f.candidate.body.endOf way).span) = true := by
  have hbody := inPlace_body hmodule hf
  obtain ⟨above, habove, hprefix, hpart, helement⟩ :=
    exists_element_above hbody (notText_body hmodule hf) hway htext
  generalize f.candidate.body.endOf way = part at *
  subst habove
  have hreached : isReached false f.candidate.body (above ++ [part]) = true := by
    simp [isReached, halone]
  -- The element of the wrapped tree, and the one of the output that is alike.
  have hwrapped := mem_walk_wrappedModule o source hf hchanges
    (mem_walkAll_wrappedBody o source
      (mem_walkAll_wrapTexts o source hbody hway hreached helement)
      (kind_ne_of_isElement helement rfl))
    fun space => beq_eq_false_iff_ne.mpr (kind_ne_of_isElement helement rfl)
  obtain ⟨down, hdown, hsame⟩ := Node.exists_way_of_mem_walk _ _ hwrapped
  obtain ⟨down', hdown', halike', -⟩ := exists_way_alike (alike_symm halike) hdown
  rw [hsame] at halike'
  obtain ⟨hkind, -, hparts⟩ := alike_iff.mp (alike_symm halike')
  obtain ⟨left, right, hchildren⟩ := List.append_of_mem hpart
  have hnodes : wrapTexts o source false part = l.nodes o.generator source part.span := by
    cases part
    simp only [wrapTexts, hl, haccepts, if_true, Node.span_mk]
  rw [Node.children_mk, hchildren, wrapTextsAll_eq_flatMap, List.flatMap_append, List.flatMap_cons,
    hnodes, ← wrapTextsAll_eq_flatMap, ← wrapTextsAll_eq_flatMap] at hparts
  obtain ⟨before, behind, helements, hbefore, hbehind⟩ := exists_append_of_alikeAll hparts
  obtain ⟨nodes, after, rfl, hin, hafter⟩ := exists_append_of_alikeAll hbehind
  refine ⟨_, List.mem_append_left _ (Node.endOf_mem f.candidate.body above), nodes, ?_, hin⟩
  exact ⟨_, Node.mem_walk_of_isWay hdown' (Node.endOf_mem again down'), hkind, left, right, before,
    after, hchildren, helements, hbefore, hafter⟩

theorem mem_literals {source : List Char} {c : Candidate} {classifier : Classifier} {way : List Node}
    {l : Literal} (hbody : c.body.InPlace) (hway : c.body.IsWay way)
    (halone : isLeftAlone (c.body :: way) = false)
    (hl : Literal.ofNode? source (c.body.endOf way) = some l)
    (haccepts : classifier.accepts l.text = true) : l ∈ c.literals source classifier := by
  rw [literals_eq_filterMap hbody, List.mem_filterMap]
  exact ⟨way, Node.mem_ways_iff.mpr hway, by simp [halone, hl, haccepts]⟩

theorem replacementEdit_mem_of_mem_literals {o : WrapOptions} {source : List Char} {module : Node}
    {f : Found} {l : Literal} (hf : f ∈ moduleCandidates module)
    (hl : l ∈ f.candidate.literals source o.classifier) :
    f.changes o source = true ∧ replacementEdit l (o.keyOf l) ∈ (wrapModule o source module).edits := by
  have hchanges : f.changes o source = true := by
    rw [Found.changes, Bool.not_eq_true', List.isEmpty_eq_false_iff]
    exact List.ne_nil_of_mem hl
  refine ⟨hchanges, ?_⟩
  rw [edits_wrapModule]
  exact List.mem_flatMap.mpr
    ⟨f, List.mem_filter.mpr ⟨hf, hchanges⟩, List.mem_append_left _ (List.mem_map_of_mem hl)⟩

end Localization
