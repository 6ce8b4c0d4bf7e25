import Localization.Component.Literal
import Localization.Proofs.Source.Way

/-!
When a node is a candidate, and what is found in several nodes.
-/

namespace Localization

open Source (Node Kind Span ScopeStack)

/-- A node that gives a function a name: a declaration, a default export, or a variable whose value is an
arrow function. -/
inductive NamesFunction : Node → String → Node → Prop where
  | declaration (span : Span) (binder f : Node) (name : String)
      (h : binder.boundNames.head? = some name) :
      NamesFunction (.mk .functionDeclaration span [binder, f]) name f
  | defaultExport (span inner : Span) (binder f : Node) (name : String)
      (h : binder.boundNames.head? = some name) :
      NamesFunction (.mk .exportDefaultDeclaration span [.mk .functionExpression inner [binder, f]])
        name f
  | value (span inner : Span) (types : List Node) (name : String) (value : Node) (isAsync : Bool)
      (h : value.unparenthesized.kind = .arrow isAsync) :
      NamesFunction (.mk .declarator span [.mk (.binding name) inner types, value]) name
        value.unparenthesized

theorem namedFunction?_eq_some_iff {n f : Node} {name : String} :
    Candidate.namedFunction? n = some (name, f) ↔ NamesFunction n name f := by
  constructor
  · intro h
    cases n with
    | mk kind span children =>
        simp only [Candidate.namedFunction?] at h
        split at h
        · next binder f hkind hchildren =>
            simp only [Option.bind_eq_bind, Option.bind_eq_some_iff, Option.some.injEq,
              Prod.mk.injEq] at h
            obtain ⟨text, htext, rfl, rfl⟩ := h
            simp only [Node.kind_mk, Node.children_mk] at hkind hchildren
            subst hkind hchildren
            exact .declaration span binder f text htext
        · next d hkind hchildren =>
            cases d with
            | mk inner innerSpan parts =>
                split at h
                · next binder f hinner hparts =>
                    simp only [Option.bind_eq_bind, Option.bind_eq_some_iff, Option.some.injEq,
                      Prod.mk.injEq] at h
                    obtain ⟨text, htext, rfl, rfl⟩ := h
                    simp only [Node.kind_mk, Node.children_mk] at hkind hchildren hinner hparts
                    subst hkind hchildren hinner hparts
                    exact .defaultExport span innerSpan binder f text htext
                · contradiction
        · next target value hkind hchildren =>
            cases target with
            | mk binding inner types =>
                split at h
                · next text isAsync hbinding harrow =>
                    simp only [Option.some.injEq, Prod.mk.injEq] at h
                    obtain ⟨rfl, rfl⟩ := h
                    simp only [Node.kind_mk, Node.children_mk] at hkind hchildren hbinding
                    subst hkind hchildren hbinding
                    exact .value span inner types text value isAsync harrow
                · contradiction
        · contradiction
  · rintro (⟨span, binder, f, name, h⟩ | ⟨span, inner, binder, f, name, h⟩ |
      ⟨span, inner, types, name, value, isAsync, h⟩)
    · simp [Candidate.namedFunction?, h]
    · simp [Candidate.namedFunction?, h]
    · simp [Candidate.namedFunction?, h]

/-- A function is a candidate if its name is that of a component and it has a body. -/
theorem map_body_ofFunction? (name : String) (f : Node) :
    (Candidate.ofFunction? name f).map Candidate.body =
      if isComponentName name then f.body? else none := by
  cases hname : isComponentName name with
  | false => simp [Candidate.ofFunction?, hname]
  | true => cases hbody : f.body? <;> simp [Candidate.ofFunction?, hname, hbody]

theorem map_body_ofNode?_eq_some_iff {n b : Node} :
    (Candidate.ofNode? n).map Candidate.body = some b ↔
      ∃ name f, NamesFunction n name f ∧ isComponentName name = true ∧ f.body? = some b := by
  simp only [Candidate.ofNode?, Option.bind_eq_bind, Option.map_bind, Option.bind_eq_some_iff,
    Function.comp_apply, Prod.exists, namedFunction?_eq_some_iff]
  refine exists_congr fun name => exists_congr fun f => and_congr_right fun _ => ?_
  rw [map_body_ofFunction?]
  cases isComponentName name <;> simp

/-- A candidate is a function with the name of a component; its bindings are the names that its
parameters and the top level of its body declare. -/
theorem exists_function_of_ofNode? {n : Node} {c : Candidate} (h : Candidate.ofNode? n = some c) :
    ∃ f, NamesFunction n c.name f ∧ isComponentName c.name = true ∧ f.body? = some c.body ∧
      c.bindings = (if c.hasBlock then Node.statementNames c.body.children else []) ++
        f.parameterNames := by
  simp only [Candidate.ofNode?, Option.bind_eq_bind, Option.bind_eq_some_iff, Prod.exists,
    namedFunction?_eq_some_iff] at h
  obtain ⟨name, f, hnamed, hfunction⟩ := h
  simp only [Candidate.ofFunction?] at hfunction
  split at hfunction
  · contradiction
  · next hname =>
      simp only [Option.bind_eq_bind, Option.bind_eq_some_iff, Option.some.injEq] at hfunction
      obtain ⟨body, hbody, rfl⟩ := hfunction
      exact ⟨f, hnamed, by simpa using hname, hbody, rfl⟩

theorem findCandidatesAll_eq_flatMap (scopes : ScopeStack) (nodes : List Node) :
    findCandidatesAll scopes nodes = nodes.flatMap (findCandidates scopes) := by
  induction nodes with
  | nil => rfl
  | cons n rest ih => rw [findCandidatesAll, ih, List.flatMap_cons]

/-- A candidate is at a node, or the candidates in a node are those in its parts. -/
theorem findCandidates_cases (scopes : ScopeStack) (n : Node) :
    (∃ c, Candidate.ofNode? n = some c ∧ findCandidates scopes n = [⟨c, scopes⟩]) ∨
      findCandidates scopes n = [] ∨
      findCandidates scopes n = findCandidatesAll (scopesInside scopes n) n.children := by
  cases n with
  | mk kind span children =>
      rw [findCandidates]
      split
      · next c hc => exact .inl ⟨c, hc, rfl⟩
      · refine .inr ?_
        split
        · exact .inl rfl
        · exact .inr rfl

theorem Literal.collectAll_eq_flatMap (source : List Char) (translated : Bool) (nodes : List Node) :
    collectAll source translated nodes = nodes.flatMap (collect source translated) := by
  induction nodes with
  | nil => rfl
  | cons n rest ih => rw [collectAll, ih, List.flatMap_cons]

/-- What is collected in a node is the node itself, or what is collected in its parts. -/
theorem Literal.collect_cases (source : List Char) (translated : Bool) (n : Node) :
    (∃ l, ofNode? source n = some l ∧ collect source translated n = [l]) ∨
      collect source translated n = [] ∨
      collect source translated n =
        collectAll source (isLookupCall n.kind n.children) n.children := by
  cases n with
  | mk kind span children =>
      rw [collect]
      split
      · next l hl => exact .inl ⟨l, hl, rfl⟩
      · refine .inr ?_
        split
        · exact .inl rfl
        · split
          · exact .inl rfl
          · split
            · exact .inl rfl
            · exact .inr rfl

end Localization
