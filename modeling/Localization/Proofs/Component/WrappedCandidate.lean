import Localization.Proofs.Component.WrappedTree

/-!
The candidates of a wrapped tree. A candidate stays one with its new body, and wrapping the candidates
in a node makes no new one of the node.
-/

namespace Localization

open Source (Node Kind Span ScopeStack)

/-! ### Candidates with another body -/

theorem body?_eq (f : Node) : f.body? = f.children.find? isBody := rfl

theorem body?_withBody {f b : Node} {rest : List Node} (hf : f.body?.isSome = true)
    (hb : isBody b = true) : (withBody (b :: rest) f).body? = some b := by
  cases f with
  | mk kind span children =>
      rw [body?_eq, Node.children_mk] at hf
      rw [body?_eq, withBody, Node.children_mk, Node.children_mk]
      induction children with
      | nil => simp at hf
      | cons part more ih =>
          rw [replaceBody]
          split
          · exact List.find?_cons_of_pos hb
          · next hpart =>
              rw [List.find?_cons_of_neg hpart] at hf ⊢
              exact ih hf

theorem unparenthesized_insideParentheses (body : List Node) {n : Node}
    (h : n.unparenthesized.kind ≠ .paren) :
    (insideParentheses (withBody body) n).unparenthesized = withBody body n.unparenthesized := by
  fun_induction Node.unparenthesized n with
  | case1 span inner ih =>
      rw [insideParentheses, Node.unparenthesized]
      exact ih h
  | case2 n hn =>
      rw [insideParentheses]
      · exact Node.unparenthesized_of_kind h
      · exact hn

theorem NamesFunction.withBody {n f : Node} {name : String} (body : List Node)
    (h : NamesFunction n name f) :
    NamesFunction (withCandidateBody body n) name (Localization.withBody body f) := by
  cases h with
  | declaration span binder _ _ hname => exact .declaration span binder _ name hname
  | defaultExport span inner binder _ _ hname => exact .defaultExport span inner binder _ name hname
  | value span inner types _ value isAsync harrow =>
      have hinside := unparenthesized_insideParentheses body (n := value) (by simp [harrow])
      rw [← hinside]
      refine .value span inner types name _ isAsync ?_
      rw [hinside]
      exact harrow

theorem exists_ofNode?_withCandidateBody {n b : Node} {c : Candidate} (rest : List Node)
    (hc : Candidate.ofNode? n = some c) (hb : isBody b = true) :
    ∃ c', Candidate.ofNode? (withCandidateBody (b :: rest) n) = some c' ∧ c'.body = b := by
  have hbody : (Candidate.ofNode? n).map Candidate.body = some c.body := by rw [hc, Option.map_some]
  obtain ⟨name, f, hnamed, hcomponent, hf⟩ := map_body_ofNode?_eq_some_iff.mp hbody
  have hnew := map_body_ofNode?_eq_some_iff.mpr ⟨name, _, hnamed.withBody (b :: rest), hcomponent,
    body?_withBody (by rw [hf]; rfl) hb⟩
  exact Option.map_eq_some_iff.mp hnew

/-! ### Nodes with other parts -/

/-- The kind of a node and those of its parts. -/
def outline (n : Node) : Kind × List Kind :=
  (n.kind, n.children.map Node.kind)

theorem kind_insideParentheses (body : List Node) (n : Node) :
    (insideParentheses (withBody body) n).kind = n.kind := by
  fun_cases insideParentheses (withBody body) n with
  | case1 span inner => rfl
  | case2 n hn => rfl

theorem ofNode?_kind {n : Node} {c : Candidate} (h : Candidate.ofNode? n = some c) :
    n.kind = .functionDeclaration ∨ n.kind = .exportDefaultDeclaration ∨ n.kind = .declarator := by
  have hbody : (Candidate.ofNode? n).map Candidate.body = some c.body := by rw [h, Option.map_some]
  obtain ⟨name, f, hnamed, -, -⟩ := map_body_ofNode?_eq_some_iff.mp hbody
  cases hnamed with
  | declaration => exact .inl rfl
  | defaultExport => exact .inr (.inl rfl)
  | value => exact .inr (.inr rfl)

theorem outline_withCandidateBody (body : List Node) (n : Node) :
    outline (withCandidateBody body n) = outline n := by
  fun_cases withCandidateBody body n with
  | case1 name f hkind hchildren => simp [outline, hkind, hchildren, withBody]
  | case2 kind span name f hkind hchildren => simp [outline, hkind, hchildren]
  | case3 target value hkind hchildren =>
      simp [outline, hkind, hchildren, kind_insideParentheses]
  | case4 => rfl

section

variable (o : WrapOptions) (source : List Char)

theorem wrapCandidates_of_none {scopes : ScopeStack} {n : Node}
    (h : Candidate.ofNode? n = none) (htype : n.kind ≠ .type) :
    wrapCandidates o source scopes n =
      .mk n.kind n.span (wrapCandidatesAll o source (scopesInside scopes n) n.children) := by
  cases n
  simp only [Node.kind_mk] at htype
  simp [wrapCandidates, h, htype]

theorem kind_wrapCandidates (scopes : ScopeStack) (n : Node) :
    (wrapCandidates o source scopes n).kind = n.kind := by
  cases n with
  | mk kind span children =>
      simp only [wrapCandidates]
      split
      · split
        · rfl
        · exact congrArg Prod.fst (outline_withCandidateBody _ _)
      · split
        · rfl
        · rfl

theorem kinds_wrapCandidatesAll (scopes : ScopeStack) (nodes : List Node) :
    (wrapCandidatesAll o source scopes nodes).map Node.kind = nodes.map Node.kind := by
  induction nodes with
  | nil => rfl
  | cons n rest ih => simp [wrapCandidatesAll, kind_wrapCandidates, ih]

theorem outline_wrapCandidates (scopes : ScopeStack) (n : Node) :
    outline (wrapCandidates o source scopes n) = outline n := by
  cases n with
  | mk kind span children =>
      simp only [wrapCandidates]
      split
      · split
        · rfl
        · exact outline_withCandidateBody _ _
      · split
        · rfl
        · simp [outline, kinds_wrapCandidatesAll]

mutual

theorem boundNames_wrapCandidates : ∀ (scopes : ScopeStack) (n : Node),
    (wrapCandidates o source scopes n).boundNames = n.boundNames
  | scopes, .mk kind span children => by
      cases hc : Candidate.ofNode? (.mk kind span children) with
      | some c =>
          have hkind := kind_wrapCandidates o source scopes (.mk kind span children)
          generalize wrapCandidates o source scopes (.mk kind span children) = wrapped at hkind
          cases wrapped with
          | mk kind' span' children' =>
              simp only [Node.kind_mk] at hkind
              subst hkind
              rcases ofNode?_kind hc with h | h | h <;> (simp only [Node.kind_mk] at h; subst h; rfl)
      | none =>
          simp only [wrapCandidates, hc]
          split
          · rfl
          · simp only [Node.boundNames]
            rw [boundNamesAll_wrapCandidatesAll _ children]

theorem boundNamesAll_wrapCandidatesAll : ∀ (scopes : ScopeStack) (nodes : List Node),
    Node.boundNamesAll (wrapCandidatesAll o source scopes nodes) = Node.boundNamesAll nodes
  | _, [] => rfl
  | scopes, n :: rest => by
      rw [wrapCandidatesAll, Node.boundNamesAll, boundNames_wrapCandidates scopes n,
        boundNamesAll_wrapCandidatesAll scopes rest, Node.boundNamesAll]

end

theorem outline_unparenthesized_wrapCandidates (scopes : ScopeStack) (n : Node) :
    outline (wrapCandidates o source scopes n).unparenthesized = outline n.unparenthesized := by
  fun_induction Node.unparenthesized n generalizing scopes with
  | case1 span inner ih =>
      rw [wrapCandidates_of_none o source rfl (by simp)]
      exact ih _
  | case2 n hn =>
      have houtline := outline_wrapCandidates o source scopes n
      unfold Node.unparenthesized
      split
      · next span' inner' hwrapped =>
          rw [hwrapped] at houtline
          cases n with
          | mk kind span children =>
              simp only [outline, Node.kind_mk, Node.children_mk, List.map_cons, List.map_nil,
                Prod.mk.injEq] at houtline
              obtain ⟨inner, rfl, -⟩ := List.map_eq_singleton_iff.mp houtline.2.symm
              exact absurd (by rw [← houtline.1]) (hn span inner)
      · exact houtline

theorem isSome_find?_congr {p : Node → Bool} (hp : ∀ {n n' : Node}, n.kind = n'.kind → p n = p n')
    {nodes nodes' : List Node} (h : nodes.map Node.kind = nodes'.map Node.kind) :
    (nodes.find? p).isSome = (nodes'.find? p).isSome := by
  induction nodes generalizing nodes' with
  | nil => rw [List.map_eq_nil_iff.mp h.symm]
  | cons n rest ih =>
      cases nodes' with
      | nil => simp at h
      | cons n' rest' =>
          simp only [List.map_cons, List.cons.injEq] at h
          rw [List.find?_cons, List.find?_cons, hp h.1]
          split
          · rfl
          · exact ih h.2

theorem isSome_body?_congr {f f' : Node} (h : outline f = outline f') :
    f.body?.isSome = f'.body?.isSome :=
  isSome_find?_congr (fun hkind => by rw [hkind]) (congrArg Prod.snd h)

theorem wrapCandidatesAll_eq_map (scopes : ScopeStack) (nodes : List Node) :
    wrapCandidatesAll o source scopes nodes = nodes.map (wrapCandidates o source scopes) := by
  induction nodes with
  | nil => rfl
  | cons n rest ih => rw [wrapCandidatesAll, ih, List.map_cons]

theorem wrapCandidatesAll_eq_pair {scopes : ScopeStack} {nodes : List Node} {m m' : Node}
    (h : wrapCandidatesAll o source scopes nodes = [m, m']) :
    ∃ n n', nodes = [n, n'] ∧ wrapCandidates o source scopes n = m ∧
      wrapCandidates o source scopes n' = m' := by
  rw [wrapCandidatesAll_eq_map, List.map_eq_cons_iff] at h
  obtain ⟨n, rest, rfl, hn, hrest⟩ := h
  obtain ⟨n', rfl, hn'⟩ := List.map_eq_singleton_iff.mp hrest
  exact ⟨n, n', rfl, hn, hn'⟩

/-- A node that names a function when the candidates in it are wrapped has done so before. -/
theorem NamesFunction.of_wrapCandidates {n g : Node} {name : String} {scopes : ScopeStack}
    (hnone : Candidate.ofNode? n = none)
    (h : NamesFunction (wrapCandidates o source scopes n) name g) :
    ∃ f, NamesFunction n name f ∧ outline g = outline f := by
  cases n with
  | mk kind span children =>
      have htype : kind ≠ .type := by
        rintro rfl
        simp only [wrapCandidates, hnone, beq_self_eq_true, if_true] at h
        cases h
      rw [wrapCandidates_of_none o source hnone htype, Node.kind_mk, Node.span_mk,
        Node.children_mk] at h
      -- Only the kinds of the wrapped parts matter, and those are the kinds of the parts.
      generalize scopesInside scopes (.mk kind span children) = inside at h
      generalize hparts : wrapCandidatesAll o source inside children = parts at h
      cases h with
      | declaration _ binder _ _ hname =>
          obtain ⟨binder', f, rfl, rfl, rfl⟩ := wrapCandidatesAll_eq_pair o source hparts
          rw [boundNames_wrapCandidates] at hname
          exact ⟨f, .declaration span binder' f name hname, outline_wrapCandidates ..⟩
      | defaultExport _ inner binder _ _ hname =>
          rw [wrapCandidatesAll_eq_map] at hparts
          obtain ⟨d, rfl, hd⟩ := List.map_eq_singleton_iff.mp hparts
          have hkind := kind_wrapCandidates o source inside d
          cases d with
          | mk inner' span' parts' =>
              rw [hd] at hkind
              simp only [Node.kind_mk] at hkind
              subst hkind
              rw [wrapCandidates_of_none o source rfl (by simp)] at hd
              simp only [Node.mk.injEq, Node.children_mk] at hd
              obtain ⟨binder', f, rfl, rfl, rfl⟩ := wrapCandidatesAll_eq_pair o source hd.2.2
              rw [boundNames_wrapCandidates] at hname
              exact ⟨f, .defaultExport span span' binder' f name hname,
                outline_wrapCandidates ..⟩
      | value _ inner types _ value isAsync harrow =>
          obtain ⟨target, value', rfl, htarget, rfl⟩ := wrapCandidatesAll_eq_pair o source hparts
          have houtline := outline_unparenthesized_wrapCandidates o source inside value'
          have hkind := kind_wrapCandidates o source inside target
          cases target with
          | mk binding inner' types' =>
              rw [htarget, Node.kind_mk, Node.kind_mk] at hkind
              subst hkind
              refine ⟨_, .value span inner' types' name value' isAsync ?_, houtline⟩
              rw [← harrow]
              exact (congrArg Prod.fst houtline).symm

/-- Wrapping the candidates in a node that is none does not make it one. -/
theorem ofNode?_wrapCandidates_of_none (scopes : ScopeStack) {n : Node}
    (h : Candidate.ofNode? n = none) :
    Candidate.ofNode? (wrapCandidates o source scopes n) = none := by
  rw [Option.eq_none_iff_forall_ne_some]
  intro c hc
  have hbody : (Candidate.ofNode? (wrapCandidates o source scopes n)).map Candidate.body =
      some c.body := by rw [hc, Option.map_some]
  obtain ⟨name, g, hnamed, hcomponent, hg⟩ := map_body_ofNode?_eq_some_iff.mp hbody
  obtain ⟨f, hnamed', houtline⟩ := hnamed.of_wrapCandidates o source h
  obtain ⟨b, hb⟩ : ∃ b, f.body? = some b := by
    rw [← Option.isSome_iff_exists, ← isSome_body?_congr houtline, hg]
    rfl
  have hfound := map_body_ofNode?_eq_some_iff.mpr ⟨name, f, hnamed', hcomponent, hb⟩
  rw [h] at hfound
  contradiction

end

end Localization
