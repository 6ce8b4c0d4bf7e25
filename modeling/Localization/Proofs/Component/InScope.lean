import Localization.Proofs.Component.Redeclared
import Localization.Proofs.Component.WrappedCandidate
import Localization.Proofs.Source.Resolution

/-!
Whether the lookup function is in scope where a hook is inserted. The scopes that are tracked on the way to
a component are those of functions and blocks, with what is declared directly in them. Main statement:
`wrapSource_hooks_in_scope_iff`, which tells in which other ways the name may be in scope.
-/

namespace Localization

open Source (Node Kind ScopeStack)

/-! ### Names around a node -/

namespace Source.Node

/-- The names that an item declares for its module without being a declaration that is looked at. -/
def unlistedItemNames (item : Node) : List String :=
  match item.kind with
  | .importDeclaration _ _ | .exportDefaultDeclaration => item.hoistedNames
  | .exportDeclaration => item.children.flatMap unlistedNames
  | _ => item.unlistedNames

/-- The names that a node on a way below its module brings into scope at the end of the way, in the sense
of the language. What a `var` declares anywhere in a block is in scope in the whole function. -/
def namesAround (n : Node) (way : List Node) : List String :=
  match n.kind with
  | .moduleBlock => moduleScopeNames n.children
  | .block => scopeNames n.children
  | .function _ _ | .arrow _ => if (turn way).leavesFunction then [] else n.parameterNames
  | _ => n.scopeAt (turn way)

/-- Those of the names that no tracked scope has. -/
def untrackedNames (n : Node) (way : List Node) : List String :=
  match n.kind with
  | .block => n.children.flatMap unlistedNames
  | .function _ _ | .arrow _ => []
  | _ => n.namesAround way

/-- Whether a node on a way has a name among those that are counted. -/
def hasOn (names : Node → List Node → List String) (name : String) : List Node → Bool
  | [] => false
  | n :: way => (names n way).contains name || hasOn names name way

/-- Whether a name is in scope at the end of a way through a module, in the sense of the language. -/
def isInScope (name : String) (module : Node) (way : List Node) : Bool :=
  (moduleScopeNames module.children).contains name || hasOn namesAround name way

/-- Whether it is so through a declaration that is not looked at, or a scope that is not tracked. -/
def isMissed (name : String) (module : Node) (way : List Node) : Bool :=
  (module.children.flatMap unlistedItemNames).contains name || hasOn untrackedNames name way

/-- The names of the scope that is tracked for a node. -/
def trackedNames (n : Node) : List String :=
  (openedScope? n).getD []

theorem mem_itemScopeNames_iff {name : String} {item : Node} :
    name ∈ item.itemScopeNames ↔ name ∈ item.itemNames ∨ name ∈ item.unlistedItemNames := by
  rw [itemScopeNames, List.mem_append]
  cases hkind : item.kind with
  | importDeclaration typeOnly source =>
      simp only [itemLexicalNames, itemNames, unlistedItemNames, hkind]
  | exportDeclaration =>
      have hhoisted : item.hoistedNames = item.children.flatMap hoistedNames := by
        cases item
        simp only [kind_mk] at hkind
        subst hkind
        exact hoistedNamesAll_eq_flatMap _
      simp only [itemLexicalNames, itemNames, unlistedItemNames, hkind, hhoisted, List.mem_flatMap,
        ← exists_or, ← and_or_left, mem_lexicalNames_or_hoistedNames_iff]
  | exportDefaultDeclaration =>
      have hdeclared : item.itemLexicalNames = item.itemNames := by
        cases item
        simp only [kind_mk] at hkind
        subst hkind
        rfl
      simp only [hdeclared, unlistedItemNames, hkind]
  | _ =>
      simp only [itemLexicalNames, itemNames, unlistedItemNames, hkind,
        mem_lexicalNames_or_hoistedNames_iff]

theorem mem_moduleScopeNames_iff {name : String} {items : List Node} :
    name ∈ moduleScopeNames items ↔
      name ∈ moduleNames items ∨ name ∈ items.flatMap unlistedItemNames := by
  simp only [moduleScopeNames, moduleNames, List.mem_flatMap, mem_itemScopeNames_iff, and_or_left,
    exists_or]

/-- A name around a node that its tracked scope lacks is one of the others, and those are names around the
node. -/
theorem mem_namesAround_iff {name : String} {n : Node} (h : name ∉ n.trackedNames) (way : List Node) :
    name ∈ n.namesAround way ↔ name ∈ n.untrackedNames way := by
  cases hkind : n.kind with
  | block =>
      have hnames : name ∉ statementNames n.children := by
        simpa [trackedNames, openedScope?, hkind] using h
      simp only [namesAround, untrackedNames, hkind, mem_scopeNames_iff, hnames, false_or,
        List.mem_flatMap]
  | function isAsync isGenerator =>
      have hnames : name ∉ n.parameterNames := by
        simpa [trackedNames, openedScope?, hkind] using h
      simp [namesAround, untrackedNames, hkind, hnames]
  | arrow isAsync =>
      have hnames : name ∉ n.parameterNames := by
        simpa [trackedNames, openedScope?, hkind] using h
      simp [namesAround, untrackedNames, hkind, hnames]
  | _ => simp [namesAround, untrackedNames, hkind]

theorem hasOn_namesAround {name : String} {way : List Node} (h : ∀ n ∈ way, name ∉ n.trackedNames) :
    hasOn namesAround name way = hasOn untrackedNames name way := by
  induction way with
  | nil => rfl
  | cons n rest ih =>
      have hhere := mem_namesAround_iff (h n List.mem_cons_self) rest
      rw [hasOn, hasOn, ih fun m hm => h m (List.mem_cons_of_mem n hm), List.contains_eq_mem,
        List.contains_eq_mem, decide_eq_decide.mpr hhere]

/-- A name that no tracked scope has is in scope exactly if it is missed. -/
theorem isInScope_eq_isMissed {name : String} {module : Node} {way : List Node}
    (hmodule : name ∉ moduleNames module.children) (hway : ∀ n ∈ way, name ∉ n.trackedNames) :
    isInScope name module way = isMissed name module way := by
  have hitems : name ∈ moduleScopeNames module.children ↔
      name ∈ module.children.flatMap unlistedItemNames := by
    rw [mem_moduleScopeNames_iff, or_iff_right hmodule]
  rw [isInScope, isMissed, hasOn_namesAround hway, List.contains_eq_mem, List.contains_eq_mem,
    decide_eq_decide.mpr hitems]

end Source.Node

/-! ### Scopes that are tracked -/

theorem binds_scopesInside_iff {name : String} {scopes : ScopeStack} {n : Node} :
    (scopesInside scopes n).binds name = true ↔
      name ∈ n.trackedNames ∨ scopes.binds name = true := by
  rw [scopesInside, Node.trackedNames]
  cases openedScope? n with
  | none => simp
  | some names => simp [ScopeStack.binds_enter]

theorem trackedNames_of_ofNode? {n : Node} {c : Candidate} (h : Candidate.ofNode? n = some c) :
    n.trackedNames = [] := by
  rcases ofNode?_kind h with hkind | hkind | hkind <;> simp [Node.trackedNames, openedScope?, hkind]

/-- A candidate stands at the end of a way, and the scopes that are tracked for the nodes on the way are
among its own. -/
theorem exists_tracked_way (name : String) : ∀ (scopes : ScopeStack) (n : Node) (f : Found),
    f ∈ findCandidates scopes n → f.scopes.binds name = false →
      scopes.binds name = false ∧ ∃ way, n.IsWay way ∧
        Candidate.ofNode? (n.endOf way) = some f.candidate ∧
        ∀ m ∈ n :: way, name ∉ m.trackedNames
  | scopes, .mk kind span children, f, h, hbinds => by
      rcases findCandidates_cases scopes (.mk kind span children) with
        ⟨c, hcandidate, hfind⟩ | hfind | hfind
      · rw [hfind] at h
        obtain rfl := List.mem_singleton.mp h
        refine ⟨hbinds, [], trivial, hcandidate, fun m hm => ?_⟩
        rw [List.mem_singleton.mp hm, trackedNames_of_ofNode? hcandidate]
        exact List.not_mem_nil
      · simp [hfind] at h
      · rw [hfind, findCandidatesAll_eq_flatMap] at h
        obtain ⟨part, hpart, hfound⟩ := List.mem_flatMap.mp h
        obtain ⟨hinside, way, hway, hend, hall⟩ := exists_tracked_way name _ part f hfound hbinds
        have hnone := mt binds_scopesInside_iff.mpr (Bool.eq_false_iff.mp hinside)
        rw [not_or, Bool.not_eq_true] at hnone
        exact ⟨hnone.2, part :: way, ⟨hpart, hway⟩, hend, List.forall_mem_cons.mpr ⟨hnone.1, hall⟩⟩

/-- Where a component finds the lookup function unbound, no tracked scope around it has the name. -/
theorem Found.exists_untracked_way {module : Node} {f : Found} (hf : f ∈ moduleCandidates module)
    (hneeds : f.needsHook = true) :
    lookupName ∉ Node.moduleNames module.children ∧ ∃ way, module.IsWay way ∧
      Candidate.ofNode? (module.endOf way) = some f.candidate ∧
      ∀ n ∈ way, lookupName ∉ n.trackedNames := by
  have hscopes : f.scopes.binds lookupName = false := by
    simp only [needsHook, bindsLookup, Bool.and_eq_true, Bool.not_eq_true', Bool.or_eq_false_iff]
      at hneeds
    exact hneeds.1.2
  rw [moduleCandidates, findCandidatesAll_eq_flatMap] at hf
  obtain ⟨item, hitem, hfound⟩ := List.mem_flatMap.mp hf
  obtain ⟨hmodule, way, hway, hend, hall⟩ := exists_tracked_way lookupName _ item f hfound hscopes
  refine ⟨?_, item :: way, ⟨hitem, hway⟩, hend, hall⟩
  simpa [ScopeStack.binds, ScopeStack.declare, ScopeStack.empty] using hmodule

/-- For a component that receives the hook, the lookup function is in scope already exactly if a node around
the component binds it in a way that is missed: a declaration of its module or of a block by `using`, as a
namespace or by `import … = …`, a `var` inside another statement, a declaration of a namespace around the
component or of the cases of a `switch`, a parameter of a constructor or a setter or of a `catch`, the head of
a loop, or the name of a function or class expression. -/
theorem wrapSource_hooks_in_scope_iff {o : WrapOptions} {path : String} {source : List Char}
    {w : WrappedSource} {module : Node} (h : wrapSource? o path source = .ok (some w))
    (hmodule : Source.parseFile path source = .ok module) :
    (hookedCandidates o source module).map (fun f => f.candidate.name) =
        (w.changes.components.filter fun m => m.hookInserted).map ChangedComponent.name ∧
      ∀ f ∈ hookedCandidates o source module,
        f.hookEdits source o.space ≠ [] ∧ f.hookEdits source o.space ⊆ w.changes.edits ∧
        ∃ way, module.IsWay way ∧ Candidate.ofNode? (module.endOf way) = some f.candidate ∧
          Node.isInScope lookupName module way = Node.isMissed lookupName module way := by
  obtain ⟨module', hparse, -, hchanges, -⟩ := wrapSource?_eq_some h
  rw [hmodule, Except.ok.injEq] at hparse
  subst hparse
  rw [hchanges]
  refine ⟨names_hookedCandidates o source module, fun f hf => ?_⟩
  obtain ⟨hmem, hhooked⟩ := List.mem_filter.mp hf
  have hneeds := (Bool.and_eq_true_iff.mp hhooked).2
  obtain ⟨hitems, way, hway, hend, hall⟩ := f.exists_untracked_way hmem hneeds
  exact ⟨f.hookEdits_ne_nil hneeds source o.space, hookEdits_subset_wrapModule hf, way, hway, hend,
    Node.isInScope_eq_isMissed hitems hall⟩

/-- A component in a module that requires the lookup function. -/
def requiredLookup : List Char :=
  "import t = require(\"i18n\");\nfunction A() \x7b return <p>안녕</p>; \x7d\n".toList

theorem wrapSource_hooks_in_scope_of_requiredLookup :
    ∃ (w : WrappedSource) (module : Node),
      wrapSource? (koreanOptions none) "a.tsx" requiredLookup = .ok (some w) ∧
        Source.parseFile "a.tsx" requiredLookup = .ok module ∧
        w.changes.components = [⟨"A", true⟩] ∧
        ∃ f ∈ hookedCandidates (koreanOptions none) requiredLookup module, ∃ way,
          module.IsWay way ∧ Candidate.ofNode? (module.endOf way) = some f.candidate ∧
          Node.isInScope lookupName module way = true := by
  obtain ⟨w, hrun, hcomponents⟩ := exists_wrapped (koreanOptions none) "a.tsx" requiredLookup
    (p := fun w => w.changes.components == [⟨"A", true⟩]) (by decide +kernel)
  obtain ⟨module, hmodule, hrequired⟩ := exists_module "a.tsx" requiredLookup
    (p := fun module => !(hookedCandidates (koreanOptions none) requiredLookup module).isEmpty &&
      (module.children.flatMap Node.unlistedItemNames).contains lookupName) (by decide +kernel)
  rw [Bool.and_eq_true, Bool.not_eq_true', List.isEmpty_eq_false_iff_exists_mem] at hrequired
  obtain ⟨⟨f, hf⟩, hmissed⟩ := hrequired
  obtain ⟨-, hhooked⟩ := wrapSource_hooks_in_scope_iff hrun hmodule
  obtain ⟨-, -, way, hway, hend, hsame⟩ := hhooked f hf
  refine ⟨w, module, hrun, hmodule, beq_iff_eq.mp hcomponents, f, hf, way, hway, hend, ?_⟩
  rw [hsame, Node.isMissed, hmissed, Bool.true_or]

/-- A component may receive the hook although the lookup function is in scope. -/
theorem wrapSource_not_always_finds_scope :
    ¬ ∀ (o : WrapOptions) (path : String) (source : List Char) (w : WrappedSource) (module : Node),
      wrapSource? o path source = .ok (some w) → Source.parseFile path source = .ok module →
      ∀ f ∈ hookedCandidates o source module, ∀ way, module.IsWay way →
        Candidate.ofNode? (module.endOf way) = some f.candidate →
        Node.isInScope lookupName module way = false := by
  intro hall
  obtain ⟨w, hrun, -⟩ := exists_wrapped (koreanOptions none) "a.tsx" requiredLookup
    (p := fun _ => true) (by decide +kernel)
  obtain ⟨module, hmodule, hrequired⟩ := exists_module "a.tsx" requiredLookup
    (p := fun module => !(hookedCandidates (koreanOptions none) requiredLookup module).isEmpty &&
      (Node.moduleScopeNames module.children).contains lookupName) (by decide +kernel)
  rw [Bool.and_eq_true, Bool.not_eq_true', List.isEmpty_eq_false_iff_exists_mem] at hrequired
  obtain ⟨⟨f, hf⟩, hnamed⟩ := hrequired
  obtain ⟨hmem, hhooked⟩ := List.mem_filter.mp hf
  obtain ⟨-, way, hway, hend, -⟩ := f.exists_untracked_way hmem (Bool.and_eq_true_iff.mp hhooked).2
  have hscope := hall _ _ _ w module hrun hmodule f hf way hway hend
  rw [Node.isInScope, hnamed, Bool.true_or] at hscope
  exact Bool.noConfusion hscope

end Localization
