import Localization.Proofs.Component.Emitted
import Localization.Proofs.Source.ModuleScope

/-!
Whether an inserted hook declares the lookup function a second time. A component that receives the hook
has no parameter and no direct declaration of the name, but its body may still declare the name by
`using` or by a `var` inside another statement. Main statement: `wrapSource_redeclares_lookup_iff`.
-/

namespace Localization

open Source (Node)

/-- The components of a module that receive the hook. -/
def hookedCandidates (o : WrapOptions) (source : List Char) (module : Node) : List Found :=
  (moduleCandidates module).filter fun f => f.changes o source && f.needsHook

theorem names_hookedCandidates (o : WrapOptions) (source : List Char) (module : Node) :
    (hookedCandidates o source module).map (fun f => f.candidate.name) =
      ((wrapModule o source module).components.filter fun m => m.hookInserted).map
        ChangedComponent.name := by
  rw [components_wrapModule, List.filter_map, List.map_map, List.filter_filter, hookedCandidates]
  congr 2
  funext f
  exact Bool.and_comm _ _

theorem hookEdits_subset_wrapModule {o : WrapOptions} {source : List Char} {module : Node} {f : Found}
    (hf : f ∈ hookedCandidates o source module) :
    f.hookEdits source o.space ⊆ (wrapModule o source module).edits := by
  obtain ⟨hmem, hhooked⟩ := List.mem_filter.mp hf
  intro e he
  rw [edits_wrapModule]
  refine List.mem_flatMap.mpr ⟨f, List.mem_filter.mpr ⟨hmem, (Bool.and_eq_true_iff.mp hhooked).1⟩, ?_⟩
  exact List.mem_append_right _ he

theorem Found.hookEdits_ne_nil {f : Found} (h : f.needsHook = true) (source : List Char)
    (space : Option String) : f.hookEdits source space ≠ [] := by
  simp only [needsHook, Bool.and_eq_true, Bool.not_eq_true'] at h
  simp only [hookEdits, Candidate.hookEdits?, h.1, h.2, Bool.false_eq_true, if_false]
  split
  · exact List.cons_ne_nil _ _
  · exact List.cons_ne_nil _ _

/-- What is known of the names in the scope of a component that finds the lookup function unbound. -/
structure Unbound (f : Found) (g : Node) : Prop where
  parameters : lookupName ∉ g.parameterNames
  direct : f.candidate.hasBlock = true →
    lookupName ∉ Node.statementNames f.candidate.body.children
  /-- The scope has the name exactly if a statement declares it in a way that is not looked at. -/
  scope : lookupName ∈ g.functionScopeNames ↔ f.candidate.hasBlock = true ∧
    ∃ s ∈ f.candidate.body.children, lookupName ∈ s.unlistedNames

theorem Found.exists_unbound {module : Node} {f : Found} (hf : f ∈ moduleCandidates module)
    (hneeds : f.needsHook = true) :
    ∃ n ∈ module.walk, ∃ g, NamesFunction n f.candidate.name g ∧
      g.body? = some f.candidate.body ∧ Unbound f g := by
  obtain ⟨n, hn, hnode⟩ := exists_node_of_mem_moduleCandidates hf
  obtain ⟨g, hnamed, -, hbody, hbindings⟩ := exists_function_of_ofNode? hnode
  have hunbound : lookupName ∉ f.candidate.bindings := by
    simp only [needsHook, bindsLookup, Bool.and_eq_true, Bool.not_eq_true', Bool.or_eq_false_iff,
      List.contains_eq_mem, decide_eq_false_iff_not] at hneeds
    exact hneeds.1.1
  rw [hbindings, List.mem_append, not_or] at hunbound
  obtain ⟨hdeclared, hparameters⟩ := hunbound
  have hdirect : f.candidate.hasBlock = true →
      lookupName ∉ Node.statementNames f.candidate.body.children := by
    intro hblock
    rwa [if_pos hblock] at hdeclared
  refine ⟨n, hn, g, hnamed, hbody, hparameters, hdirect, ?_⟩
  have hkind : (f.candidate.body.kind == .block) = f.candidate.hasBlock := rfl
  simp only [Node.functionScopeNames, hbody, List.mem_append, hparameters, false_or, hkind]
  cases hblock : f.candidate.hasBlock with
  | true =>
      rw [if_pos rfl, Node.mem_scopeNames_iff]
      simp [hdirect hblock]
  | false => simp

/-- A component that receives the hook has no parameter with the name of the lookup function, and its
statements do not declare the name directly. The hook declares the name a second time exactly if a
statement of the component declares it by `using`, or has a `var` of that name inside. -/
theorem wrapSource_redeclares_lookup_iff {o : WrapOptions} {path : String} {source : List Char}
    {w : WrappedSource} {module : Node} (h : wrapSource? o path source = .ok (some w))
    (hmodule : Source.parseFile path source = .ok module) :
    (hookedCandidates o source module).map (fun f => f.candidate.name) =
        (w.changes.components.filter fun m => m.hookInserted).map ChangedComponent.name ∧
      ∀ f ∈ hookedCandidates o source module,
        f.hookEdits source o.space ≠ [] ∧ f.hookEdits source o.space ⊆ w.changes.edits ∧
        ∃ n ∈ module.walk, ∃ g, NamesFunction n f.candidate.name g ∧
          g.body? = some f.candidate.body ∧ Unbound f g := by
  obtain ⟨module', hparse, -, hchanges, -⟩ := wrapSource?_eq_some h
  rw [hmodule, Except.ok.injEq] at hparse
  subst hparse
  rw [hchanges]
  refine ⟨names_hookedCandidates o source module, ?_⟩
  intro f hf
  obtain ⟨hmem, hhooked⟩ := List.mem_filter.mp hf
  have hneeds := (Bool.and_eq_true_iff.mp hhooked).2
  obtain ⟨n, hn, g, hnamed, hbody, hunbound⟩ := f.exists_unbound hmem hneeds
  exact ⟨f.hookEdits_ne_nil hneeds source o.space, hookEdits_subset_wrapModule hf, n, hn, g, hnamed,
    hbody, hunbound⟩

/-- A component with a `var` of the name of the lookup function inside another statement. -/
def nestedVariable : List Char :=
  "function A() \x7b if (x) \x7b var t = 1; \x7d return <p>안녕</p>; \x7d\n".toList

/-- Whether some component that receives the hook declares the lookup function in a way that is not
looked at. -/
def redeclares (o : WrapOptions) (source : List Char) (module : Node) : Bool :=
  (hookedCandidates o source module).any fun f =>
    f.candidate.hasBlock && f.candidate.body.children.any fun s => s.unlistedNames.contains lookupName

theorem wrapSource_redeclares_lookup_nestedVariable :
    ∃ (w : WrappedSource) (module : Node),
      wrapSource? (koreanOptions none) "a.tsx" nestedVariable = .ok (some w) ∧
        Source.parseFile "a.tsx" nestedVariable = .ok module ∧
        w.changes.components = [⟨"A", true⟩] ∧
        ∃ f ∈ hookedCandidates (koreanOptions none) nestedVariable module,
          f.hookEdits nestedVariable none ⊆ w.changes.edits ∧
          ∃ n ∈ module.walk, ∃ g, NamesFunction n f.candidate.name g ∧
            lookupName ∉ g.parameterNames ∧ lookupName ∈ g.functionScopeNames := by
  obtain ⟨w, hrun, hcomponents⟩ := exists_wrapped (koreanOptions none) "a.tsx" nestedVariable
    (p := fun w => w.changes.components == [⟨"A", true⟩]) (by decide +kernel)
  obtain ⟨module, hmodule, hredeclares⟩ := exists_module "a.tsx" nestedVariable
    (p := redeclares (koreanOptions none) nestedVariable) (by decide +kernel)
  obtain ⟨f, hf, hunlisted⟩ := List.any_eq_true.mp hredeclares
  simp only [Bool.and_eq_true, List.any_eq_true, List.contains_eq_mem, decide_eq_true_eq]
    at hunlisted
  obtain ⟨-, hhooked⟩ := wrapSource_redeclares_lookup_iff hrun hmodule
  obtain ⟨-, hsubset, n, hn, g, hnamed, -, hunbound⟩ := hhooked f hf
  exact ⟨w, module, hrun, hmodule, beq_iff_eq.mp hcomponents, f, hf, hsubset, n, hn, g, hnamed,
    hunbound.parameters, hunbound.scope.mpr hunlisted⟩

/-- An inserted hook may declare the lookup function a second time. -/
theorem wrapSource_not_always_declares_once :
    ¬ ∀ (o : WrapOptions) (path : String) (source : List Char) (w : WrappedSource) (module : Node),
      wrapSource? o path source = .ok (some w) → Source.parseFile path source = .ok module →
      ∀ f ∈ hookedCandidates o source module, ∀ n ∈ module.walk, ∀ g,
        NamesFunction n f.candidate.name g → g.body? = some f.candidate.body →
        lookupName ∉ g.functionScopeNames := by
  intro hall
  obtain ⟨w, hrun, -⟩ := exists_wrapped (koreanOptions none) "a.tsx" nestedVariable
    (p := fun _ => true) (by decide +kernel)
  obtain ⟨module, hmodule, hredeclares⟩ := exists_module "a.tsx" nestedVariable
    (p := redeclares (koreanOptions none) nestedVariable) (by decide +kernel)
  obtain ⟨f, hf, hunlisted⟩ := List.any_eq_true.mp hredeclares
  simp only [Bool.and_eq_true, List.any_eq_true, List.contains_eq_mem, decide_eq_true_eq]
    at hunlisted
  obtain ⟨hmem, hhooked⟩ := List.mem_filter.mp hf
  obtain ⟨n, hn, g, hnamed, hbody, hunbound⟩ :=
    f.exists_unbound hmem (Bool.and_eq_true_iff.mp hhooked).2
  exact hall _ _ _ w module hrun hmodule f hf n hn g hnamed hbody (hunbound.scope.mpr hunlisted)

end Localization
