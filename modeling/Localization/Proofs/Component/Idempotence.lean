import Localization.Proofs.Component.WrappedCandidate
import Localization.Proofs.Source.Entity

/-!
Wrapping a source twice. Wrapping settles a tree, so that nothing is left to be wrapped, with one exception:
the argument of an inserted hook is a string in a component, and may be a text to be wrapped.
-/

/-! ## Settled trees -/

namespace Localization

open Source (Node Kind Span ScopeStack)

variable {first second : List Char}

/-! ### Texts in a component -/

/-- Whether several nodes have a text that a classifier accepts. -/
def hasText (classifier : Classifier) (source : List Char) (translated : Bool)
    (nodes : List Node) : Bool :=
  ((Literal.collectAll source translated nodes).map Literal.text).any classifier.accepts

theorem hasText_alike (classifier : Classifier) {n n' : Node}
    (h : alike first second n n' = true) :
    hasText classifier first false [n] = hasText classifier second false [n'] := by
  simp only [hasText, Literal.collectAll, List.append_nil, texts_collect false h]

section

variable (classifier : Classifier) (source : List Char) (translated : Bool)

@[simp] theorem hasText_nil : hasText classifier source translated [] = false := rfl

@[simp] theorem hasText_append (nodes more : List Node) :
    hasText classifier source translated (nodes ++ more) =
      (hasText classifier source translated nodes || hasText classifier source translated more) := by
  simp only [hasText, Literal.collectAll_eq_flatMap, List.flatMap_append, List.map_append,
    List.any_append]

theorem hasText_cons (n : Node) (rest : List Node) :
    hasText classifier source translated (n :: rest) =
      (hasText classifier source translated [n] || hasText classifier source translated rest) :=
  hasText_append classifier source translated [n] rest

theorem hasText_of_ofNode? {n : Node} {l : Literal} (h : Literal.ofNode? source n = some l) :
    hasText classifier source translated [n] = classifier.accepts l.text := by
  cases n
  simp [hasText, Literal.collectAll, Literal.collect, h]

/-- Where a node is no literal, its texts are among those of its parts. -/
theorem hasText_of_parts {kind : Kind} {span : Span} {children : List Node}
    (h : Literal.ofNode? source (.mk kind span children) = none)
    (hparts : hasText classifier source (Literal.isLookupCall kind children) children = false) :
    hasText classifier source translated [.mk kind span children] = false := by
  simp only [hasText, Literal.collectAll, Literal.collect, h, List.append_nil]
  split
  · rfl
  · split
    · rfl
    · split
      · rfl
      · exact hparts

end

theorem hasText_blankNodes (classifier : Classifier) (source : List Char) (translated : Bool)
    {blanks : List Char} (h : ∀ c ∈ blanks, Text.isBlank c = true) (span : Span) :
    hasText classifier source translated (blankNodes blanks span) = false := by
  rw [blankNodes]
  split
  · rfl
  · have hblank := Source.Parser.isBlank_of_mem_joinLineEnds h
    refine hasText_of_parts _ _ _ ?_ rfl
    simp [Literal.ofNode?, Node.kind, Literal.ofElementText?, Text.trimString, Text.trim_of_blank hblank]

theorem isBlank_of_mem_leadingBlanks {c : Char} {cs : List Char} (h : c ∈ leadingBlanks cs) :
    Text.isBlank c = true := by
  induction cs with
  | nil => simp [leadingBlanks] at h
  | cons d rest ih =>
      simp only [leadingBlanks, List.takeWhile_cons] at h
      split at h
      · next hd =>
          rcases List.mem_cons.mp h with rfl | hrest
          · exact hd
          · exact ih hrest
      · simp at h

theorem isBlank_of_mem_trailingBlanks {c : Char} {cs : List Char} (h : c ∈ trailingBlanks cs) :
    Text.isBlank c = true :=
  isBlank_of_mem_leadingBlanks (List.mem_reverse.mp h)

theorem hasText_callNode (classifier : Classifier) (source : List Char) (translated : Bool)
    (key : String) :
    hasText classifier source translated [callNode lookupName (some key)] = false := by
  refine hasText_of_parts _ _ _ rfl ?_
  rfl

theorem hasText_node (classifier : Classifier) (source : List Char) (translated : Bool)
    (site : LiteralSite) (key : String) :
    hasText classifier source translated [site.node (callNode lookupName (some key))] = false := by
  cases site with
  | expression => exact hasText_callNode classifier source translated key
  | «attribute» => exact hasText_of_parts _ _ _ rfl (hasText_callNode classifier source _ key)
  | propertyKey => exact hasText_of_parts _ _ _ rfl (hasText_callNode classifier source _ key)
  | elementText => exact hasText_of_parts _ _ _ rfl (hasText_callNode classifier source _ key)

theorem hasText_nodes (classifier : Classifier) (source : List Char) (translated : Bool)
    (l : Literal) (generator : KeyGenerator) (span : Span) :
    hasText classifier source translated (l.nodes generator source span) = false := by
  simp only [Literal.nodes]
  split
  · rw [hasText_append, hasText_cons, hasText_node, hasText_blankNodes, hasText_blankNodes]
    · rfl
    · exact fun c hc => isBlank_of_mem_trailingBlanks hc
    · exact fun c hc => isBlank_of_mem_leadingBlanks hc
  · exact hasText_node classifier source translated _ _

theorem exists_nodes_eq_cons (l : Literal) (generator : KeyGenerator) (source : List Char)
    (span : Span) : ∃ m rest, l.nodes generator source span = m :: rest ∧ isBody m = true ∧
      ∀ name, (m.kind == .identifier name) = false := by
  have hcall : ∀ key, isBody (l.site.node (callNode lookupName (some key))) = true ∧
      ∀ name, ((l.site.node (callNode lookupName (some key))).kind == .identifier name) = false := by
    intro key
    cases l.site <;> exact ⟨rfl, fun name => rfl⟩
  simp only [Literal.nodes]
  split
  · simp only [blankNodes]
    split
    · exact ⟨_, _, rfl, hcall _⟩
    · exact ⟨_, _, rfl, rfl, fun name => rfl⟩
  · exact ⟨_, [], rfl, hcall _⟩

/-- The nodes that a node becomes begin with one that is a body if the node is, and a name if it is. -/
theorem exists_wrapTexts_eq_cons (o : WrapOptions) (source : List Char) (translated : Bool)
    (n : Node) : ∃ m rest, wrapTexts o source translated n = m :: rest ∧ isBody m = isBody n ∧
      ∀ name, (m.kind == .identifier name) = (n.kind == .identifier name) := by
  cases n with
  | mk kind span children =>
      simp only [wrapTexts]
      split
      · next l hliteral =>
          split
          · obtain ⟨m, rest, hnodes, hbody, hname⟩ :=
              exists_nodes_eq_cons l o.generator source span
            have hkind := hliteral
            simp only [Literal.ofNode?, Node.kind] at hkind
            refine ⟨m, rest, hnodes, ?_, fun name => ?_⟩
            · rw [hbody]
              split at hkind <;> first | rfl | contradiction
            · rw [hname]
              split at hkind <;> first | rfl | contradiction
          · exact ⟨_, [], rfl, rfl, fun name => rfl⟩
      · split
        · exact ⟨_, [], rfl, rfl, fun name => rfl⟩
        · split
          · exact ⟨_, [], rfl, rfl, fun name => rfl⟩
          · split
            · exact ⟨_, [], rfl, rfl, fun name => rfl⟩
            · exact ⟨_, [], rfl, rfl, fun name => rfl⟩

theorem isLookupCall_wrapTextsAll (o : WrapOptions) (source : List Char) (translated : Bool)
    (kind : Kind) (children : List Node) :
    Literal.isLookupCall kind (wrapTextsAll o source translated children) =
      Literal.isLookupCall kind children := by
  cases children with
  | nil => rfl
  | cons callee rest =>
      obtain ⟨m, more, hcallee, -, hname⟩ :=
        exists_wrapTexts_eq_cons o source translated callee
      rw [wrapTextsAll, hcallee, List.cons_append]
      cases kind <;> first | exact hname lookupName | rfl

theorem ofNode?_of_kind {source : List Char} {kind : Kind} {span : Span} {children : List Node}
    (parts : List Node) (h : Literal.ofNode? source (.mk kind span children) = none) :
    Literal.ofNode? source (.mk kind span parts) = none := h

mutual

/-- No text is left in what the parts of a component become. -/
theorem hasText_wrapTexts (o : WrapOptions) (source : List Char) : ∀ (translated : Bool) (n : Node),
    hasText o.classifier source translated (wrapTexts o source translated n) = false
  | translated, .mk kind span children => by
      simp only [wrapTexts]
      split
      · next l hliteral =>
          split
          · exact hasText_nodes _ _ _ l _ span
          · next haccepts =>
              rw [hasText_of_ofNode? _ _ _ hliteral]
              simpa using haccepts
      · next hnone =>
          split
          · next htype => simp [hasText, Literal.collectAll, Literal.collect, hnone, htype]
          · split
            · next hstatement =>
                simp [hasText, Literal.collectAll, Literal.collect, hnone, hstatement]
            · split
              · next hargument =>
                  simp [hasText, Literal.collectAll, Literal.collect, hnone, hargument]
              · refine hasText_of_parts _ _ _ (ofNode?_of_kind _ hnone) ?_
                rw [isLookupCall_wrapTextsAll]
                exact hasText_wrapTextsAll o source _ children

theorem hasText_wrapTextsAll (o : WrapOptions) (source : List Char) :
    ∀ (translated : Bool) (nodes : List Node),
      hasText o.classifier source translated (wrapTextsAll o source translated nodes) = false
  | _, [] => rfl
  | translated, n :: rest => by
      rw [wrapTextsAll, hasText_append, hasText_wrapTexts o source translated n,
        hasText_wrapTextsAll o source translated rest]
      rfl

end

/-! ### Settled trees -/

mutual

/-- Whether no candidate in a node has a text that a classifier accepts. -/
def isSettled (classifier : Classifier) (source : List Char) : Node → Bool
  | .mk kind span children =>
    match Candidate.ofNode? (.mk kind span children) with
    | some c => (c.literals source classifier).isEmpty
    | none => kind == .type || isSettledAll classifier source children

def isSettledAll (classifier : Classifier) (source : List Char) : List Node → Bool
  | [] => true
  | n :: rest => isSettled classifier source n && isSettledAll classifier source rest

end

theorem isSettled_of_ofNode? {classifier : Classifier} {source : List Char} {n : Node}
    {c : Candidate} (h : Candidate.ofNode? n = some c) :
    isSettled classifier source n = (c.literals source classifier).isEmpty := by
  cases n
  simp only [isSettled, h]

theorem Candidate.isEmpty_literals (c : Candidate) (source : List Char) (classifier : Classifier) :
    (c.literals source classifier).isEmpty = !hasText classifier source false [c.body] := by
  rw [Bool.eq_iff_iff]
  simp [Candidate.literals, hasText, Literal.collectAll, List.filter_eq_nil_iff]

mutual

/-- Trees that are alike have the same texts left to be wrapped. -/
theorem isSettled_alike (classifier : Classifier) : ∀ {n n' : Node},
    alike first second n n' = true →
    isSettled classifier first n = isSettled classifier second n'
  | .mk kind span children, .mk kind' span' children', h => by
      obtain ⟨hkind, -, hchildren⟩ := alike_iff.mp h
      simp only [Node.kind, Node.children] at hkind hchildren
      simp only [isSettled]
      cases hc : Candidate.ofNode? (.mk kind span children) with
      | some c =>
          obtain ⟨c', hc', hbody⟩ := ofNode?_alike h hc
          simp only [hc', Candidate.isEmpty_literals, hasText_alike classifier hbody]
      | none =>
          cases hc' : Candidate.ofNode? (.mk kind' span' children') with
          | some c' =>
              obtain ⟨c, hc'', -⟩ := ofNode?_alike (alike_symm h) hc'
              rw [hc] at hc''
              contradiction
          | none => rw [hkind, isSettledAll_alike classifier hchildren]

theorem isSettledAll_alike (classifier : Classifier) : ∀ {nodes nodes' : List Node},
    alikeAll first second nodes nodes' = true →
    isSettledAll classifier first nodes = isSettledAll classifier second nodes'
  | [], [], _ => rfl
  | n :: rest, n' :: rest', h => by
      simp only [alikeAll, Bool.and_eq_true] at h
      rw [isSettledAll, isSettledAll, isSettled_alike classifier h.1,
        isSettledAll_alike classifier h.2]

end

mutual

theorem any_changes_findCandidates (o : WrapOptions) (source : List Char) :
    ∀ (scopes : ScopeStack) (n : Node),
      ((findCandidates scopes n).any fun f => f.changes o source) =
        !isSettled o.classifier source n
  | scopes, .mk kind span children => by
      simp only [findCandidates, isSettled]
      cases Candidate.ofNode? (.mk kind span children) with
      | some c => simp [Found.changes]
      | none =>
          cases htype : kind == Kind.type with
          | true => rfl
          | false => exact any_changes_findCandidatesAll o source _ children

theorem any_changes_findCandidatesAll (o : WrapOptions) (source : List Char) :
    ∀ (scopes : ScopeStack) (nodes : List Node),
      ((findCandidatesAll scopes nodes).any fun f => f.changes o source) =
        !isSettledAll o.classifier source nodes
  | _, [] => rfl
  | scopes, n :: rest => by
      rw [findCandidatesAll, List.any_append, any_changes_findCandidates o source scopes n,
        any_changes_findCandidatesAll o source scopes rest, isSettledAll, Bool.not_and]

end

/-- A source is left alone exactly if it reads as a module in which nothing is left to be wrapped. -/
theorem wrapSource?_eq_none_iff_isSettled {o : WrapOptions} {path : String} {source : List Char} :
    wrapSource? o path source = .ok none ↔ ∃ module, Source.parseFile path source = .ok module ∧
      isSettledAll o.classifier source module.children = true := by
  rw [wrapSource?_eq_none_iff]
  refine exists_congr fun module => and_congr_right fun _ => ?_
  rw [components_wrapModule, List.map_eq_nil_iff, List.filter_eq_nil_iff]
  have hany := any_changes_findCandidatesAll o source
    (ScopeStack.empty.declare (Node.moduleNames module.children)) module.children
  constructor
  · intro hnone
    have hfalse := List.any_eq_false.mpr hnone
    rw [moduleCandidates, hany] at hfalse
    simpa using hfalse
  · intro hsettled
    rw [hsettled] at hany
    exact List.any_eq_false.mp hany

/-! ### Components -/

theorem hasText_hookNode (classifier : Classifier) (source : List Char) (space : Option String) :
    hasText classifier source false [hookNode space] = space.any classifier.accepts := by
  cases space with
  | none => rfl
  | some text =>
      have hcollect : Literal.collectAll source false [hookNode (some text)] =
          [Literal.ofString .expression ⟨0, 0⟩ text] := rfl
      rw [hasText, hcollect]
      simp [Literal.ofString]

theorem hasText_block (classifier : Classifier) (source : List Char) (span : Span)
    (children : List Node) : hasText classifier source false [.mk .block span children] =
      hasText classifier source false children := by
  simp only [hasText, Literal.collectAll, List.append_nil]
  rfl

/-- The only text in a wrapped body with a hook is the argument of the hook. -/
theorem hasText_withHook {classifier : Classifier} {source : List Char} {body : List Node}
    (space : Option String) (h : hasText classifier source false body = false) :
    hasText classifier source false [withHook space body] = space.any classifier.accepts := by
  unfold withHook
  split
  · next span children =>
      rw [hasText_block] at h
      rw [hasText_block, hasText_cons, hasText_hookNode, h, Bool.or_false]
  · have hreturn : hasText classifier source false [newNode .returnStatement body] = false :=
      hasText_of_parts _ _ _ rfl h
    rw [newNode, hasText_block, hasText_cons, hasText_hookNode, hreturn, Bool.or_false]

theorem exists_wrappedBody_eq_cons {f : Found} (o : WrapOptions) (source : List Char)
    (h : isBody f.candidate.body = true) :
    ∃ b rest, f.wrappedBody o source = b :: rest ∧ isBody b = true ∧
      hasText o.classifier source false [b] =
        (f.needsHook && o.space.any o.classifier.accepts) := by
  have hsettled := hasText_wrapTexts o source false f.candidate.body
  simp only [Found.wrappedBody]
  cases hhook : f.needsHook with
  | true =>
      refine ⟨_, [], rfl, ?_, hasText_withHook o.space hsettled⟩
      simp only [withHook]
      split <;> rfl
  | false =>
      obtain ⟨m, rest, hbody, hm, -⟩ := exists_wrapTexts_eq_cons o source false f.candidate.body
      rw [hbody, hasText_cons, Bool.or_eq_false_iff] at hsettled
      exact ⟨m, rest, hbody, hm.trans h, hsettled.1⟩

theorem isBody_of_ofNode? {n : Node} {c : Candidate} (h : Candidate.ofNode? n = some c) :
    isBody c.body = true := by
  have hbody : (Candidate.ofNode? n).map Candidate.body = some c.body := by rw [h, Option.map_some]
  obtain ⟨name, f, -, -, hf⟩ := map_body_ofNode?_eq_some_iff.mp hbody
  rw [body?_eq] at hf
  exact List.find?_some hf

mutual

/-- What is left to be wrapped in a wrapped tree are the arguments of inserted hooks. -/
theorem isSettled_wrapCandidates (o : WrapOptions) (source : List Char) :
    ∀ (scopes : ScopeStack) (n : Node),
      isSettled o.classifier source (wrapCandidates o source scopes n) =
        !(((findCandidates scopes n).any fun f => f.changes o source && f.needsHook) &&
          o.space.any o.classifier.accepts)
  | scopes, .mk kind span children => by
      -- The cases are those of the walk for candidates, which does not go on inside a candidate.
      cases hc : Candidate.ofNode? (.mk kind span children) with
      | some c =>
          cases hempty : (c.literals source o.classifier).isEmpty with
          | true =>
              simp [wrapCandidates, findCandidates, isSettled, Found.changes, hc, hempty]
          | false =>
              obtain ⟨b, rest, hbody, hb, htext⟩ :=
                exists_wrappedBody_eq_cons (f := ⟨c, scopes⟩) o source (isBody_of_ofNode? hc)
              -- The new node is a candidate again, and its body is the wrapped one.
              obtain ⟨c', hc', rfl⟩ := exists_ofNode?_withCandidateBody rest hc hb
              simp only [wrapCandidates, findCandidates, hc, hempty, hbody]
              rw [if_neg Bool.false_ne_true, isSettled_of_ofNode? hc', Candidate.isEmpty_literals,
                List.any_cons, List.any_nil, Bool.or_false, Found.changes, hempty]
              rw [htext]
              rfl
      | none =>
          by_cases htype : kind = .type
          · subst htype
            simp [wrapCandidates, findCandidates, isSettled, hc]
          · have hnone := ofNode?_wrapCandidates_of_none o source scopes hc
            rw [wrapCandidates_of_none o source hc htype] at hnone ⊢
            have hparts := isSettledAll_wrapCandidatesAll o source
              (scopesInside scopes (.mk kind span children)) children
            have hkind : (kind == .type) = false := by simpa using htype
            rw [Node.kind_mk, Node.span_mk, Node.children_mk] at hnone ⊢
            simp only [isSettled, hnone, findCandidates, hc, hkind]
            exact hparts

theorem isSettledAll_wrapCandidatesAll (o : WrapOptions) (source : List Char) :
    ∀ (scopes : ScopeStack) (nodes : List Node),
      isSettledAll o.classifier source (wrapCandidatesAll o source scopes nodes) =
        !(((findCandidatesAll scopes nodes).any fun f => f.changes o source && f.needsHook) &&
          o.space.any o.classifier.accepts)
  | _, [] => rfl
  | scopes, n :: rest => by
      rw [wrapCandidatesAll, isSettledAll, isSettled_wrapCandidates o source scopes n,
        isSettledAll_wrapCandidatesAll o source scopes rest, findCandidatesAll, List.any_append,
        Bool.and_or_distrib_right, Bool.not_or]

end

end Localization

/-! ## The second pass -/

namespace Localization

open Source (Node Kind ScopeStack)

section

variable (classifier : Classifier) (source : List Char)

theorem isSettledAll_append (nodes more : List Node) :
    isSettledAll classifier source (nodes ++ more) =
      (isSettledAll classifier source nodes && isSettledAll classifier source more) := by
  induction nodes with
  | nil => rfl
  | cons n rest ih => rw [List.cons_append, isSettledAll, isSettledAll, ih, Bool.and_assoc]

theorem isSettledAll_insertBehindLast (p : Node → Bool) (nodes : List Node) :
    isSettledAll classifier source (insertBehindLast p hookSpecifier nodes) =
      isSettledAll classifier source nodes := by
  induction nodes with
  | nil => rfl
  | cons n rest ih =>
      rw [insertBehindLast]
      split
      · rfl
      · rw [isSettledAll, ih, isSettledAll]

/-- An import has no candidates, and the same parts are searched in an import that is extended. -/
theorem isSettled_withHookSpecifier {item : Node} {space : String}
    (h : isValueImportFrom space item = true) :
    isSettled classifier source (withHookSpecifier item) = isSettled classifier source item := by
  cases item with
  | mk kind span children =>
      have hkind : kind = .importDeclaration false (some space) := by
        simpa [isValueImportFrom] using h
      subst hkind
      exact isSettledAll_insertBehindLast classifier source _ children

theorem isSettledAll_extendFirst (space : String) (items : List Node) :
    isSettledAll classifier source (extendFirst space items) =
      isSettledAll classifier source items := by
  induction items with
  | nil => rfl
  | cons item rest ih =>
      rw [extendFirst]
      split
      · next himport =>
          rw [isSettledAll, isSettledAll,
            isSettled_withHookSpecifier classifier source (Bool.and_eq_true_iff.mp himport).1]
      · rw [isSettledAll, isSettledAll, ih]

theorem isSettledAll_withHookImport (space : String) (items : List Node) :
    isSettledAll classifier source (withHookImport space items) =
      isSettledAll classifier source items := by
  simp only [withHookImport]
  split
  · rfl
  · split
    · exact isSettledAll_extendFirst classifier source space items
    · have himport : isSettled classifier source (hookImport space) = true := rfl
      rw [isSettledAll_append, isSettledAll, himport, Bool.true_and, ← isSettledAll_append,
        List.takeWhile_append_dropWhile]

end

/-- Something is left to be wrapped in a wrapped module when a hook is inserted whose argument is a text
to be wrapped. -/
theorem isSettledAll_wrappedModule (o : WrapOptions) (source : List Char) (module : Node) :
    isSettledAll o.classifier source (wrappedModule o source module).children = true ↔
      ¬ (0 < (wrapModule o source module).hookCount ∧
        ∃ text, o.space = some text ∧ o.classifier.accepts text = true) := by
  have hitems : isSettledAll o.classifier source (wrappedModule o source module).children =
      isSettledAll o.classifier source (wrapCandidatesAll o source
        (ScopeStack.empty.declare (Node.moduleNames module.children)) module.children) := by
    rw [wrappedModule, Node.children_mk]
    split
    · rfl
    · exact isSettledAll_withHookImport o.classifier source o.importSource _
  have hspace : o.space.any o.classifier.accepts = true ↔
      ∃ text, o.space = some text ∧ o.classifier.accepts text = true := by
    cases o.space <;> simp
  rw [hitems, isSettledAll_wrapCandidatesAll, Bool.not_eq_true', ← Bool.not_eq_true,
    Bool.and_eq_true, hspace, hookCount_wrapModule_pos, moduleCandidates, List.any_eq_true]
  simp only [Bool.and_eq_true]

/-- A source that was wrapped, and reads as is meant, is left alone by a second wrapping with the same
settings exactly if no hook was inserted or the argument of the hook is no text to be wrapped. -/
theorem wrapSource_again_eq_none_iff {o : WrapOptions} {path : String} {source : List Char}
    {w : WrappedSource} (h : wrapSource? o path source = .ok (some w))
    (hback : ReadsBack o path source w.output) :
    wrapSource? o path w.output = .ok none ↔
      ¬ (0 < w.changes.hookCount ∧
        ∃ text, o.space = some text ∧ o.classifier.accepts text = true) := by
  obtain ⟨module, again, hmodule, hagain, halike⟩ := hback
  obtain ⟨module', hmodule', -, hchanges, -⟩ := wrapSource?_eq_some h
  rw [hmodule, Except.ok.injEq] at hmodule'
  subst hmodule'
  have hsettled := isSettledAll_alike o.classifier (alike_iff.mp halike).2.2
  rw [hchanges, ← isSettledAll_wrappedModule, wrapSource?_eq_none_iff_isSettled, ← hsettled]
  constructor
  · rintro ⟨output, houtput, hoften⟩
    rw [hagain, Except.ok.injEq] at houtput
    rwa [houtput]
  · exact fun hnone => ⟨again, hagain, hnone⟩

/-- A wrapped paragraph is left alone, since its hook has no argument. -/
theorem wrapSource_again_paragraph :
    ∃ w, wrapSource? (koreanOptions none) "a.tsx" paragraph = .ok (some w) ∧
      ReadsBack (koreanOptions none) "a.tsx" paragraph w.output ∧
      w.changes.hookCount = 1 ∧
      wrapSource? (koreanOptions none) "a.tsx" w.output = .ok none := by
  obtain ⟨w, hrun, hw⟩ := exists_wrapped (koreanOptions none) "a.tsx" paragraph
    (p := fun w => w.changes.hookCount == 1 &&
      (Source.parseFile "a.tsx" paragraph).toOption.any fun module =>
        (Source.parseFile "a.tsx" w.output).toOption.any fun again =>
          alike w.output paragraph again (wrappedModule (koreanOptions none) paragraph module))
    (by decide +kernel)
  rw [Bool.and_eq_true, beq_iff_eq] at hw
  have hback := readsBack_iff_any.mpr hw.2
  refine ⟨w, hrun, hback, hw.1, (wrapSource_again_eq_none_iff hrun hback).mpr ?_⟩
  rintro ⟨-, text, hspace, -⟩
  exact Option.some_ne_none text hspace.symm

/-- A Korean name space is wrapped by the second pass. -/
theorem wrapSource_not_always_idempotent :
    ¬ ∀ (o : WrapOptions) (path : String) (source : List Char) (w : WrappedSource),
      wrapSource? o path source = .ok (some w) → wrapSource? o path w.output = .ok none := by
  intro hall
  obtain ⟨w, hrun, hagain⟩ := exists_wrapped (koreanOptions (some "홈")) "a.tsx" paragraph
    (p := fun w =>
      (wrapSource? (koreanOptions (some "홈")) "a.tsx" w.output).toOption.join.isSome)
    (by decide +kernel)
  rw [hall _ _ _ w hrun] at hagain
  exact Bool.false_ne_true hagain

end Localization
