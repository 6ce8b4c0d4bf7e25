import Localization.Proofs.Component.WrappedCandidate
import Localization.Proofs.Source.ModuleScope

/-!
Whether the scope of a wrapped module binds the hook. An import counts as providing the hook by the name
that it imports, while the inserted statement calls the hook by its own name, so an import under another
name is not extended, and a name that is bound already is bound a second time. Main statement:
`wrapSource_binds_hook_once_iff`.
-/

namespace Localization

open Source (Node Kind Span ScopeStack)

/-! ### Names that stay the same -/

section Alike

variable {first second : List Char}

theorem boundNames_first_alike {n n' : Node} (h : alike first second n n' = true) :
    Node.boundNamesAll (n.children.take 1) = Node.boundNamesAll (n'.children.take 1) := by
  have hparts := (alike_iff.mp h).2.2
  match hn : n.children, hn' : n'.children with
  | [], [] => rfl
  | m :: _, m' :: _ =>
      rw [hn, hn', alikeAll, Bool.and_eq_true] at hparts
      simp only [List.take_succ_cons, List.take_zero, Node.boundNamesAll, boundNames_alike hparts.1]
  | [], _ :: _ => simp [hn, hn', alikeAll] at hparts
  | _ :: _, [] => simp [hn, hn', alikeAll] at hparts

theorem declaratorNames_alike {nodes nodes' : List Node}
    (h : alikeAll first second nodes nodes' = true) :
    Node.declaratorNames nodes = Node.declaratorNames nodes' := by
  induction nodes generalizing nodes' with
  | nil =>
      cases nodes' with
      | nil => rfl
      | cons n' rest' => simp [alikeAll] at h
  | cons n rest ih =>
      cases nodes' with
      | nil => simp [alikeAll] at h
      | cons n' rest' =>
          rw [alikeAll, Bool.and_eq_true] at h
          have hrest := ih h.2
          simp only [Node.declaratorNames] at hrest
          simp only [Node.declaratorNames, List.flatMap_cons, boundNames_first_alike h.1, hrest]

theorem ownNames_alike {n n' : Node} (h : alike first second n n' = true) :
    n.ownNames = n'.ownNames := by
  obtain ⟨hkind, -, hparts⟩ := alike_iff.mp h
  simp only [Node.ownNames, ← hkind, boundNames_first_alike h, declaratorNames_alike hparts]

mutual

theorem declareAlike_of_alike : ∀ {n n' : Node}, alike first second n n' = true →
    n.DeclareAlike n'
  | .mk _ _ _, .mk _ _ _, h => by
      obtain ⟨hkind, -, hparts⟩ := alike_iff.mp h
      exact Node.declareAlike_iff.mpr
        ⟨hkind, ownNames_alike h, .inr (declareAlikeAll_of_alikeAll hparts)⟩

theorem declareAlikeAll_of_alikeAll : ∀ {nodes nodes' : List Node},
    alikeAll first second nodes nodes' = true → Node.DeclareAlikeAll nodes nodes'
  | [], [], _ => trivial
  | n :: rest, n' :: rest', h => by
      rw [alikeAll, Bool.and_eq_true] at h
      exact ⟨declareAlike_of_alike h.1, declareAlikeAll_of_alikeAll h.2⟩

end

end Alike

section Candidates

theorem declareAlike_insideParentheses (body : List Node) {n : Node} {isAsync : Bool}
    (h : n.unparenthesized.kind = .arrow isAsync) :
    (insideParentheses (withBody body) n).DeclareAlike n := by
  fun_induction Node.unparenthesized n with
  | case1 span inner ih =>
      have hinner := ih h
      rw [insideParentheses]
      refine Node.declareAlike_iff.mpr ⟨rfl, ?_, .inr ⟨hinner, trivial⟩⟩
      simp only [Node.ownNames, Node.kind_mk, Node.children_mk, List.take_succ_cons, List.take_zero,
        Node.boundNamesAll, Node.boundNames_congr hinner]
  | case2 n hn =>
      rw [insideParentheses]
      · have hkind : (withBody body n).kind = n.kind := rfl
        refine Node.declareAlike_iff.mpr ⟨hkind, ?_, .inl ?_⟩
        · simp only [Node.ownNames, hkind, h]
        · rw [hkind, h]
          rfl
      · exact hn

/-- A candidate with another body declares the same names. -/
theorem declareAlike_withCandidateBody (body : List Node) {n f : Node} {name : String}
    (h : NamesFunction n name f) : (withCandidateBody body n).DeclareAlike n := by
  cases h with
  | declaration span binder _ _ hname => exact Node.declareAlike_iff.mpr ⟨rfl, rfl, .inl rfl⟩
  | defaultExport span inner binder _ _ hname =>
      refine Node.declareAlike_iff.mpr ⟨rfl, rfl, .inr ⟨?_, trivial⟩⟩
      exact Node.declareAlike_iff.mpr ⟨rfl, rfl, .inl rfl⟩
  | value span inner types _ value isAsync harrow =>
      refine Node.declareAlike_iff.mpr ⟨rfl, rfl, .inr ⟨.refl _, ?_, trivial⟩⟩
      exact declareAlike_insideParentheses body harrow

theorem boundNames_first_withCandidateBody (body : List Node) {n f : Node} {name : String}
    (h : NamesFunction n name f) :
    Node.boundNamesAll ((withCandidateBody body n).children.take 1) =
      Node.boundNamesAll (n.children.take 1) := by
  cases h <;> rfl

variable (o : WrapOptions) (source : List Char)

theorem boundNames_first_wrapCandidates (scopes : ScopeStack) (n : Node) :
    Node.boundNamesAll ((wrapCandidates o source scopes n).children.take 1) =
      Node.boundNamesAll (n.children.take 1) := by
  cases n with
  | mk kind span children =>
      rw [wrapCandidates]
      split
      · next c hc =>
          obtain ⟨f, hnamed, -⟩ := exists_function_of_ofNode? hc
          split
          · rfl
          · exact boundNames_first_withCandidateBody _ hnamed
      · split
        · rfl
        · cases children with
          | nil => rfl
          | cons part rest =>
              simp only [wrapCandidatesAll, Node.children_mk, List.take_succ_cons, List.take_zero,
                Node.boundNamesAll, boundNames_wrapCandidates]

theorem declaratorNames_wrapCandidatesAll (scopes : ScopeStack) (nodes : List Node) :
    Node.declaratorNames (wrapCandidatesAll o source scopes nodes) = Node.declaratorNames nodes := by
  rw [wrapCandidatesAll_eq_map, Node.declaratorNames, List.flatMap_map, Node.declaratorNames]
  simp only [boundNames_first_wrapCandidates]

mutual

/-- Wrapping the candidates in a tree changes no names that are declared outside of functions. -/
theorem declareAlike_wrapCandidates : ∀ (scopes : ScopeStack) (n : Node),
    (wrapCandidates o source scopes n).DeclareAlike n
  | scopes, .mk kind span children => by
      have hfirst := boundNames_first_wrapCandidates o source scopes (.mk kind span children)
      cases hc : Candidate.ofNode? (.mk kind span children) with
      | some c =>
          obtain ⟨f, hnamed, -⟩ := exists_function_of_ofNode? hc
          simp only [wrapCandidates, hc]
          split
          · exact .refl _
          · exact declareAlike_withCandidateBody _ hnamed
      | none =>
          by_cases htype : kind = .type
          · subst htype
            simp only [wrapCandidates, hc, beq_self_eq_true, if_true]
            exact .refl _
          · rw [wrapCandidates_of_none o source hc htype] at hfirst ⊢
            refine Node.declareAlike_iff.mpr
              ⟨rfl, ?_, .inr (declareAlikeAll_wrapCandidatesAll _ children)⟩
            simp only [Node.kind_mk, Node.children_mk] at hfirst
            simp only [Node.ownNames, Node.kind_mk, Node.children_mk, hfirst,
              declaratorNames_wrapCandidatesAll]

theorem declareAlikeAll_wrapCandidatesAll : ∀ (scopes : ScopeStack) (nodes : List Node),
    Node.DeclareAlikeAll (wrapCandidatesAll o source scopes nodes) nodes
  | _, [] => trivial
  | scopes, n :: rest =>
      ⟨declareAlike_wrapCandidates scopes n, declareAlikeAll_wrapCandidatesAll scopes rest⟩

end

end Candidates

/-! ### The name that is added -/

theorem perm_insertBehindLast {p : Node → Bool} {new : Node} {nodes : List Node}
    (h : nodes.any p = true) : (insertBehindLast p new nodes).Perm (new :: nodes) := by
  induction nodes with
  | nil => simp at h
  | cons n rest ih =>
      rw [insertBehindLast]
      split
      · exact .swap new n rest
      · next hlast =>
          have hrest : rest.any p = true := by
            rw [List.any_cons] at h
            cases hany : rest.any p with
            | true => rfl
            | false =>
                rw [hany, Bool.or_false] at h
                simp [h, hany] at hlast
          exact ((ih hrest).cons n).trans (.swap new n rest)

theorem any_isSpecifier_of_extendImport? {item : Node} (h : (extendImport? item).isSome = true) :
    item.children.any isSpecifier = true := by
  cases hany : item.children.any isSpecifier with
  | true => rfl
  | false =>
      have hnone : item.children.filter isSpecifier = [] := by
        simpa only [List.filter_eq_nil_iff, Bool.not_eq_true] using List.any_eq_false.mp hany
      simp [extendImport?, hnone] at h

/-- An import that is extended has the parts it had, and the specifier of the hook. -/
theorem perm_children_withHookSpecifier {item : Node}
    (h : (extendImport? item).isSome = true) :
    (withHookSpecifier item).children.Perm (hookSpecifier :: item.children) := by
  refine perm_insertBehindLast ?_
  split
  · next hnamed => exact hnamed
  · exact any_isSpecifier_of_extendImport? h

theorem itemScopeNames_import (item : Node) {space : Option String} {typeOnly : Bool}
    (h : item.kind = .importDeclaration typeOnly space) :
    item.itemScopeNames = item.children.flatMap Node.importedNames ++
      item.children.flatMap Node.hoistedNames := by
  cases item with
  | mk kind span children =>
      simp only [Node.kind_mk] at h
      subst h
      rw [← Node.hoistedNamesAll_eq_flatMap]
      rfl

/-- Extending an import adds the name of the hook to the scope. -/
theorem perm_itemScopeNames_withHookSpecifier {space : String} {item : Node}
    (himport : isValueImportFrom space item = true) (h : (extendImport? item).isSome = true) :
    (withHookSpecifier item).itemScopeNames.Perm (hookName :: item.itemScopeNames) := by
  have hkind : item.kind = .importDeclaration false (some space) := beq_iff_eq.mp himport
  have hchildren := perm_children_withHookSpecifier h
  rw [itemScopeNames_import (withHookSpecifier item) hkind, itemScopeNames_import item hkind]
  exact (hchildren.flatMap_right Node.importedNames).append
    (hchildren.flatMap_right Node.hoistedNames)

/-- An import of the hook as a value, by its own name. -/
def importsHook (space : String) (item : Node) : Bool :=
  isValueImportFrom space item &&
    item.children.any fun s => s.kind == .importNamed (some hookName) hookName false

theorem importsHook_withHookSpecifier {space : String} {item : Node}
    (himport : isValueImportFrom space item = true) (h : (extendImport? item).isSome = true) :
    importsHook space (withHookSpecifier item) = true := by
  rw [importsHook, Bool.and_eq_true]
  refine ⟨himport, List.any_eq_true.mpr ⟨hookSpecifier, ?_, beq_self_eq_true _⟩⟩
  exact (perm_children_withHookSpecifier h).mem_iff.mpr List.mem_cons_self

theorem extendFirst_spec {space : String} {items : List Node}
    (h : (items.any fun item => isValueImportFrom space item && (extendImport? item).isSome) = true) :
    (Node.moduleScopeNames (extendFirst space items)).Perm
        (hookName :: Node.moduleScopeNames items) ∧
      (extendFirst space items).any (importsHook space) = true := by
  induction items with
  | nil => simp at h
  | cons item rest ih =>
      rw [extendFirst]
      split
      · next hextends =>
          obtain ⟨himport, hextend⟩ := Bool.and_eq_true_iff.mp hextends
          refine ⟨?_, by rw [List.any_cons, importsHook_withHookSpecifier himport hextend,
            Bool.true_or]⟩
          exact (perm_itemScopeNames_withHookSpecifier himport hextend).append_right _
      · next hextends =>
          rw [List.any_cons, Bool.eq_false_iff.mpr hextends, Bool.false_or] at h
          obtain ⟨hnames, hany⟩ := ih h
          refine ⟨?_, by rw [List.any_cons, hany, Bool.or_true]⟩
          exact (hnames.append_left item.itemScopeNames).trans List.perm_middle

theorem moduleScopeNames_append (items more : List Node) :
    Node.moduleScopeNames (items ++ more) =
      Node.moduleScopeNames items ++ Node.moduleScopeNames more :=
  List.flatMap_append

/-- If no import provides the hook, then one that does is there afterwards, and its name is in the scope
of the module once more than before. -/
theorem withHookImport_spec {space : String} {items : List Node}
    (h : (items.filter (isValueImportFrom space)).any providesHook = false) :
    (Node.moduleScopeNames (withHookImport space items)).Perm
        (hookName :: Node.moduleScopeNames items) ∧
      (withHookImport space items).any (importsHook space) = true := by
  simp only [withHookImport, h, Bool.false_eq_true, if_false]
  split
  · next hextends =>
      rw [List.any_filter] at hextends
      exact extendFirst_spec hextends
  · constructor
    · have hitems := List.takeWhile_append_dropWhile (p := Node.isStringStatement) (l := items)
      have hnames := moduleScopeNames_append (items.takeWhile Node.isStringStatement)
        (items.dropWhile Node.isStringStatement)
      rw [hitems] at hnames
      rw [moduleScopeNames_append, hnames]
      exact List.perm_middle
    · have hnew : importsHook space (hookImport space) = true := by
        simp [importsHook, isValueImportFrom, hookImport, hookSpecifier, newNode]
      rw [List.any_append, List.any_cons, hnew, Bool.true_or, Bool.or_true]

/-- The hook is bound exactly once in the scope of a module, by an import of its name as a value. -/
def BindsHookOnce (space : String) (items : List Node) : Prop :=
  (Node.moduleScopeNames items).count hookName = 1 ∧ items.any (importsHook space) = true

instance (space : String) (items : List Node) : Decidable (BindsHookOnce space items) :=
  inferInstanceAs (Decidable (_ ∧ _))

theorem any_providesHook_of_importsHook {space : String} {items : List Node}
    (h : items.any (importsHook space) = true) :
    (items.filter (isValueImportFrom space)).any providesHook = true := by
  obtain ⟨item, hitem, himports⟩ := List.any_eq_true.mp h
  obtain ⟨himport, hspecifier⟩ := Bool.and_eq_true_iff.mp himports
  obtain ⟨s, hs, hkind⟩ := List.any_eq_true.mp hspecifier
  refine List.any_eq_true.mpr ⟨item, List.mem_filter.mpr ⟨hitem, himport⟩, ?_⟩
  refine List.any_eq_true.mpr ⟨s, hs, ?_⟩
  simp only [specifierProvidesHook, beq_iff_eq.mp hkind, beq_self_eq_true]

theorem bindsHookOnce_withHookImport_iff {space : String} {items : List Node} :
    BindsHookOnce space (withHookImport space items) ↔ BindsHookOnce space items ∨
      (hookName ∉ Node.moduleScopeNames items ∧
        (items.filter (isValueImportFrom space)).any providesHook = false) := by
  cases hprovides : (items.filter (isValueImportFrom space)).any providesHook with
  | true =>
      have hsame : withHookImport space items = items := by simp [withHookImport, hprovides]
      simp [hsame]
  | false =>
      obtain ⟨hnames, hany⟩ := withHookImport_spec hprovides
      have hbefore : ¬ BindsHookOnce space items := by
        rintro ⟨-, hitems⟩
        rw [any_providesHook_of_importsHook hitems] at hprovides
        contradiction
      rw [or_iff_right hbefore, BindsHookOnce, hnames.count_eq, List.count_cons_self, hany]
      simp [List.count_eq_zero]

/-! ### The output -/

section

variable {space : String} {items items' : List Node}

theorem any_specifier_congr {n n' : Node} (h : n.DeclareAlike n') {p : Node → Bool}
    (hp : ∀ {s s' : Node}, s.kind = s'.kind → p s = p s') :
    (isValueImportFrom space n && n.children.any p) =
      (isValueImportFrom space n' && n'.children.any p) := by
  simp only [isValueImportFrom, ← h.kind]
  cases himport : n.kind == .importDeclaration false (some space) with
  | false => rfl
  | true =>
      have hparts := h.parts (by rw [beq_iff_eq.mp himport]; rfl)
      rw [Node.any_congr_of_declareAlikeAll (fun hs => hp hs.kind) hparts]

theorem bindsHookOnce_congr (h : Node.DeclareAlikeAll items items') :
    BindsHookOnce space items ↔ BindsHookOnce space items' := by
  have hany := Node.any_congr_of_declareAlikeAll (p := importsHook space)
    (fun hn => any_specifier_congr hn fun hkind => by rw [hkind]) h
  rw [BindsHookOnce, BindsHookOnce, Node.moduleScopeNames_congr h, hany]

theorem any_providesHook_congr (h : Node.DeclareAlikeAll items items') :
    (items.filter (isValueImportFrom space)).any providesHook =
      (items'.filter (isValueImportFrom space)).any providesHook := by
  rw [List.any_filter, List.any_filter]
  refine Node.any_congr_of_declareAlikeAll ?_ h
  intro n n' hn
  refine any_specifier_congr hn ?_
  intro s s' hkind
  simp only [specifierProvidesHook, hkind]

end

/-- The output of a wrapping reads as a module that declares, outside of functions, what is meant. -/
def DeclaresBack (o : WrapOptions) (path : String) (source output : List Char) : Prop :=
  ∃ module again, Source.parseFile path source = .ok module ∧
    Source.parseFile path output = .ok again ∧
    Node.DeclareAlikeAll again.children (wrappedModule o source module).children

theorem ReadsBack.declaresBack {o : WrapOptions} {path : String} {source output : List Char}
    (h : ReadsBack o path source output) : DeclaresBack o path source output := by
  obtain ⟨module, again, hmodule, hagain, halike⟩ := h
  exact ⟨module, again, hmodule, hagain, declareAlikeAll_of_alikeAll (alike_iff.mp halike).2.2⟩

/-- A component in a module with a default import, which can be extended. -/
def defaultImport : List Char :=
  "import i18n from \"i18nexus\";\nfunction A() \x7b return <p>안녕</p>; \x7d\n".toList

/-- A component in a module that imports the hook under another name. -/
def aliasedImport : List Char :=
  ("import \x7b useTranslation as useT \x7d from \"i18nexus\";\n" ++
    "function A() \x7b return <p>안녕</p>; \x7d\n").toList

end Localization
