import Localization.Extraction
import Localization.Proofs.Component.Captured
import Localization.Proofs.Component.WrappedCall

/-!
Which keys are still found when the texts of a source are wrapped. Outside of components all of them are;
in a component the string of a key, or of a default text, may be wrapped itself. Main statement:
`wrapSource_keeps_keys`.
-/

namespace Localization

open Source (Node Kind Span ScopeStack)

variable {first second : List Char}

/-! ### Calls that read alike -/

theorem outline_alike {n n' : Node} (h : alike first second n n' = true) : outline n = outline n' := by
  obtain ⟨hkind, -, hparts⟩ := alike_iff.mp h
  rw [outline, outline, hkind, alikeAll_kinds hparts]

/-- A node with an outline. -/
def ofOutline (shape : Kind × List Kind) : Node :=
  newNode shape.1 (shape.2.map fun kind => newNode kind [])

/-- What looks at a node and its parts alone is the same for two nodes of one outline. -/
theorem congr_of_ofOutline {α : Type} {read : Node → α} (h : ∀ n, read (ofOutline (outline n)) = read n)
    {n n' : Node} (hoften : outline n = outline n') : read n = read n' := by
  rw [← h n, ← h n', hoften]

theorem isLookupCallee_ofOutline (n : Node) :
    Occurrence.isLookupCallee (ofOutline (outline n)) = Occurrence.isLookupCallee n := by
  obtain ⟨kind, span, children⟩ := n
  match children with
  | [] => cases kind <;> rfl
  | [_] => cases kind <;> rfl
  | [_, _] => cases kind <;> rfl
  | _ :: _ :: _ :: _ => cases kind <;> rfl

theorem stringArgument?_ofOutline (n : Node) :
    Occurrence.stringArgument? (ofOutline (outline n)) = Occurrence.stringArgument? n := by
  obtain ⟨kind, span, children⟩ := n
  cases kind with
  | argument isSpread =>
      match isSpread, children with
      | true, _ => rfl
      | false, [] => rfl
      | false, [_] => rfl
      | false, _ :: _ :: _ => rfl
  | _ => rfl

theorem defaultOfProperty?_ofOutline (n : Node) :
    Occurrence.defaultOfProperty? (ofOutline (outline n)) = Occurrence.defaultOfProperty? n := by
  obtain ⟨kind, span, children⟩ := n
  cases kind with
  | keyValue =>
      match children with
      | [] => rfl
      | [_] => rfl
      | [_, _] => rfl
      | _ :: _ :: _ :: _ => rfl
  | _ => rfl

theorem defaults_alike {n n' : Node} (h : alike first second n n' = true) :
    Occurrence.defaults n = Occurrence.defaults n' := by
  obtain ⟨hkind, -, hparts⟩ := alike_iff.mp h
  have hdefaults := flatMap_alikeAll (f := fun p => (Occurrence.defaultOfProperty? p).toList)
    (fun hp => congrArg Option.toList
      (congr_of_ofOutline defaultOfProperty?_ofOutline (outline_alike hp))) hparts
  rw [Occurrence.defaults, Occurrence.defaults, hkind, hdefaults]

theorem argumentTexts_alike {n n' : Node} (h : alike first second n n' = true) :
    Occurrence.argumentTexts n = Occurrence.argumentTexts n' := by
  obtain ⟨hkind, -, hparts⟩ := alike_iff.mp h
  have hdefaults : (n.children.take 1).flatMap Occurrence.defaults =
      (n'.children.take 1).flatMap Occurrence.defaults := by
    match hn : n.children, hn' : n'.children with
    | [], [] => rfl
    | e :: _, e' :: _ =>
        rw [hn, hn', alikeAll, Bool.and_eq_true] at hparts
        simp only [List.take_succ_cons, List.take_zero, List.flatMap_singleton,
          defaults_alike hparts.1]
    | [], _ :: _ => simp [hn, hn', alikeAll] at hparts
    | _ :: _, [] => simp [hn, hn', alikeAll] at hparts
  rw [Occurrence.argumentTexts, Occurrence.argumentTexts, ← hkind, hdefaults,
    congr_of_ofOutline stringArgument?_ofOutline (outline_alike h)]

theorem keyOfCall?_alike {n n' : Node} (h : alike first second n n' = true) :
    Occurrence.keyOfCall? n = Occurrence.keyOfCall? n' := by
  obtain ⟨hkind, -, hparts⟩ := alike_iff.mp h
  have hcall : Occurrence.isKeyCall n = Occurrence.isKeyCall n' := by
    rw [Occurrence.isKeyCall, Occurrence.isKeyCall, hkind]
    cases hn : n.children with
    | nil =>
        cases hn' : n'.children with
        | nil => rfl
        | cons callee' rest' => simp [hn, hn', alikeAll] at hparts
    | cons callee rest =>
        cases hn' : n'.children with
        | nil => simp [hn, hn', alikeAll] at hparts
        | cons callee' rest' =>
            rw [hn, hn', alikeAll, Bool.and_eq_true] at hparts
            rw [List.head?_cons, List.head?_cons, Option.any_some, Option.any_some,
              congr_of_ofOutline isLookupCallee_ofOutline (outline_alike hparts.1)]
  rw [Occurrence.keyOfCall?_eq, Occurrence.keyOfCall?_eq, hcall,
    flatMap_alikeAll argumentTexts_alike hparts]

/-! ### Calls outside of components -/

section

variable (o : WrapOptions) (source : List Char)

theorem wrapCandidates_of_kind {n : Node} (scopes : ScopeStack) (h : n.kind ≠ .functionDeclaration ∧
    n.kind ≠ .exportDefaultDeclaration ∧ n.kind ≠ .declarator) (htype : n.kind ≠ .type) :
    wrapCandidates o source scopes n = .mk n.kind n.span
      (n.children.map (wrapCandidates o source (scopesInside scopes n))) := by
  have hnone : Candidate.ofNode? n = none := by
    rw [Option.eq_none_iff_forall_ne_some]
    intro c hc
    rcases ofNode?_kind hc with hkind | hkind | hkind
    · exact h.1 hkind
    · exact h.2.1 hkind
    · exact h.2.2 hkind
  rw [wrapCandidates_of_none o source hnone htype, wrapCandidatesAll_eq_map]

theorem defaults_wrapCandidates (scopes : ScopeStack) (n : Node) :
    Occurrence.defaults (wrapCandidates o source scopes n) = Occurrence.defaults n := by
  by_cases hkind : n.kind = .object
  · rw [wrapCandidates_of_kind o source scopes (by rw [hkind]; exact ⟨nofun, nofun, nofun⟩)
      (by rw [hkind]; nofun)]
    simp only [Occurrence.defaults, Node.kind_mk, Node.children_mk, List.flatMap_map,
      congr_of_ofOutline defaultOfProperty?_ofOutline (outline_wrapCandidates ..)]
  · rw [defaults_of_kind hkind, defaults_of_kind (by rwa [kind_wrapCandidates])]

theorem argumentTexts_wrapCandidates (scopes : ScopeStack) (n : Node) :
    Occurrence.argumentTexts (wrapCandidates o source scopes n) = Occurrence.argumentTexts n := by
  by_cases hargument : ∃ isSpread, n.kind = .argument isSpread
  · obtain ⟨isSpread, hkind⟩ := hargument
    have hstring := congr_of_ofOutline stringArgument?_ofOutline
      (outline_wrapCandidates o source scopes n)
    rw [wrapCandidates_of_kind o source scopes (by rw [hkind]; exact ⟨nofun, nofun, nofun⟩)
      (by rw [hkind]; nofun)] at hstring ⊢
    simp only [Occurrence.argumentTexts, Node.kind_mk, hkind] at hstring ⊢
    rw [hstring, Node.children_mk]
    cases n.children with
    | nil => rfl
    | cons e rest =>
        simp only [List.map_cons, List.take_succ_cons, List.take_zero, List.flatMap_singleton,
          defaults_wrapCandidates]
  · have hkind : ∀ isSpread, n.kind ≠ .argument isSpread :=
      fun isSpread h => hargument ⟨isSpread, h⟩
    rw [argumentTexts_of_kind hkind, argumentTexts_of_kind]
    intro isSpread
    rw [kind_wrapCandidates]
    exact hkind isSpread

/-- A call keeps its key when the components in it are wrapped. -/
theorem keyOfCall?_wrapCandidates (scopes : ScopeStack) (n : Node) :
    Occurrence.keyOfCall? (wrapCandidates o source scopes n) = Occurrence.keyOfCall? n := by
  by_cases hkind : n.kind = .call
  · rw [wrapCandidates_of_kind o source scopes (by rw [hkind]; exact ⟨nofun, nofun, nofun⟩)
      (by rw [hkind]; nofun), Occurrence.keyOfCall?_eq, Occurrence.keyOfCall?_eq]
    generalize scopesInside scopes n = inside
    have hcall : Occurrence.isKeyCall (.mk n.kind n.span
        (n.children.map (wrapCandidates o source inside))) = Occurrence.isKeyCall n := by
      simp only [Occurrence.isKeyCall, Node.kind_mk, Node.children_mk, List.head?_map]
      cases n.children with
      | nil => rfl
      | cons callee rest =>
          rw [List.head?_cons, Option.map_some, Option.any_some, Option.any_some,
            congr_of_ofOutline isLookupCallee_ofOutline (outline_wrapCandidates ..)]
    rw [hcall, Node.children_mk, List.flatMap_map]
    simp only [argumentTexts_wrapCandidates]
  · have hnone : ∀ n' : Node, n'.kind ≠ .call → Occurrence.keyOfCall? n' = none := by
      intro n' hn'
      rw [Option.eq_none_iff_forall_ne_some]
      exact fun pair hpair => hn' (kind_of_keyOfCall? hpair)
    rw [hnone n hkind, hnone _ (by rwa [kind_wrapCandidates])]

end

/-! ### Nodes that stay -/

theorem mem_replaceBody (body : List Node) {parts : List Node} {b part : Node}
    (hbody : parts.find? isBody = some b) (hpart : part ∈ parts) :
    part = b ∨ part ∈ replaceBody body parts := by
  induction parts with
  | nil => simp at hpart
  | cons first rest ih =>
      rw [replaceBody]
      split
      · next hfirst =>
          rw [List.find?_cons_of_pos hfirst, Option.some.injEq] at hbody
          rcases List.mem_cons.mp hpart with rfl | hrest
          · exact .inl hbody
          · exact .inr (List.mem_append_right _ hrest)
      · next hfirst =>
          rw [List.find?_cons_of_neg hfirst] at hbody
          rcases List.mem_cons.mp hpart with rfl | hrest
          · exact .inr List.mem_cons_self
          · exact (ih hbody hrest).imp_right (List.mem_cons_of_mem first)

theorem subset_replaceBody {body parts : List Node} {b : Node}
    (hbody : parts.find? isBody = some b) : body ⊆ replaceBody body parts := by
  induction parts with
  | nil => simp at hbody
  | cons first rest ih =>
      rw [replaceBody]
      split
      · exact List.subset_append_left _ _
      · next hfirst =>
          rw [List.find?_cons_of_neg hfirst] at hbody
          exact List.Subset.trans (ih hbody) (List.subset_cons_self _ _)

variable {f b m : Node} {body : List Node}

/-- What is below a function stays when it gets another body, unless it is below the old one. -/
theorem mem_walk_withBody (body : List Node) (hbody : f.body? = some b) (hm : m ∈ f.walk) (hne : m ≠ f) :
    m ∈ (withBody body f).walk ∨ m ∈ b.walk := by
  rcases Node.mem_walk_cases hm with rfl | ⟨part, hpart, hbelow⟩
  · exact absurd rfl hne
  · rcases mem_replaceBody body hbody hpart with rfl | hstays
    · exact .inr hbelow
    · exact .inl (Node.mem_walk_of_child hstays hbelow)

theorem mem_walk_withBody_of_mem (hbody : f.body? = some b) (hm : m ∈ Node.walkAll body) :
    m ∈ (withBody body f).walk := by
  rw [Node.walkAll_eq_flatMap, List.mem_flatMap] at hm
  obtain ⟨part, hpart, hm⟩ := hm
  exact Node.mem_walk_of_child (subset_replaceBody hbody hpart) hm

theorem mem_walk_insideParentheses (body : List Node) {value : Node} {isAsync : Bool}
    (harrow : value.unparenthesized.kind = .arrow isAsync)
    (hbody : value.unparenthesized.body? = some b) (hm : m ∈ value.walk) (hcall : m.kind = .call) :
    m ∈ (insideParentheses (withBody body) value).walk ∨ m ∈ b.walk := by
  fun_induction Node.unparenthesized value with
  | case1 span inner ih =>
      rw [insideParentheses]
      rcases Node.mem_walk_cases hm with rfl | ⟨part, hpart, hbelow⟩
      · contradiction
      · obtain rfl := List.mem_singleton.mp hpart
        exact (ih harrow hbody hbelow).imp_left
          (Node.mem_walk_of_child (List.mem_singleton_self _))
  | case2 value hvalue =>
      rw [insideParentheses]
      · refine mem_walk_withBody body hbody hm ?_
        rintro rfl
        rw [hcall] at harrow
        contradiction
      · exact hvalue

/-- A call in a component stays when the component gets another body, unless it is in the old one. -/
theorem mem_walk_withCandidateBody (body : List Node) {n : Node} {name : String} (hn : n.InPlace)
    (hnamed : NamesFunction n name f) (hbody : f.body? = some b) (hm : m ∈ n.walk)
    (hcall : m.kind = .call) : m ∈ (withCandidateBody body n).walk ∨ m ∈ b.walk := by
  have hne : f.kind.isCall = false → m ≠ f := by
    rintro hf rfl
    rw [hcall] at hf
    contradiction
  cases hnamed with
  | declaration span binder _ _ hname =>
      have hf := hn.isCall_child rfl (List.mem_cons_of_mem _ (List.mem_singleton_self f))
      rcases Node.mem_walk_cases hm with rfl | ⟨part, hpart, hbelow⟩
      · contradiction
      · rcases List.mem_cons.mp hpart with rfl | hpart
        · exact .inl (Node.mem_walk_of_child List.mem_cons_self hbelow)
        · obtain rfl := List.mem_singleton.mp hpart
          refine (mem_walk_withBody body hbody hbelow (hne hf)).imp_left ?_
          exact Node.mem_walk_of_child (List.mem_cons_of_mem _ (List.mem_singleton_self _))
  | defaultExport span inner binder _ _ hname =>
      have hf := (hn.child (List.mem_singleton_self _)).isCall_child rfl
        (List.mem_cons_of_mem _ (List.mem_singleton_self f))
      rcases Node.mem_walk_cases hm with rfl | ⟨d, hd, hbelow⟩
      · contradiction
      · obtain rfl := List.mem_singleton.mp hd
        rcases Node.mem_walk_cases hbelow with rfl | ⟨part, hpart, hinner⟩
        · contradiction
        · have hlift : ∀ {part : Node}, part ∈ [binder, withBody body f] → m ∈ part.walk →
              m ∈ (Node.mk .exportDefaultDeclaration span
                [.mk .functionExpression inner [binder, withBody body f]]).walk :=
            fun hpart hinner => Node.mem_walk_of_child (List.mem_singleton_self _)
              (Node.mem_walk_of_child hpart hinner)
          rcases List.mem_cons.mp hpart with rfl | hpart
          · exact .inl (hlift List.mem_cons_self hinner)
          · obtain rfl := List.mem_singleton.mp hpart
            refine (mem_walk_withBody body hbody hinner (hne hf)).imp_left ?_
            exact hlift (List.mem_cons_of_mem _ (List.mem_singleton_self _))
  | value span inner types _ value isAsync harrow =>
      rcases Node.mem_walk_cases hm with rfl | ⟨part, hpart, hbelow⟩
      · contradiction
      · rcases List.mem_cons.mp hpart with rfl | hpart
        · exact .inl (Node.mem_walk_of_child List.mem_cons_self hbelow)
        · obtain rfl := List.mem_singleton.mp hpart
          refine (mem_walk_insideParentheses body harrow hbody hbelow hcall).imp_left ?_
          exact Node.mem_walk_of_child (List.mem_cons_of_mem _ (List.mem_singleton_self _))

theorem mem_walk_withCandidateBody_of_mem {n : Node} {name : String} (hnamed : NamesFunction n name f)
    (hbody : f.body? = some b) (hm : m ∈ Node.walkAll body) :
    m ∈ (withCandidateBody body n).walk := by
  obtain ⟨way, hway, hend⟩ := (hnamed.withBody body).exists_way
  have hf : withBody body f ∈ (withCandidateBody body n).walk := by
    rw [← hend]
    exact Node.mem_walk_of_isWay hway (Node.endOf_mem _ way)
  exact Node.mem_walk_trans hf (mem_walk_withBody_of_mem hbody hm)

theorem mem_walk_withHook (space : Option String) (hm : m ∈ Node.walkAll body)
    (hkind : m.kind ≠ .block) : m ∈ (withHook space body).walk := by
  unfold withHook
  split
  · next span children =>
      rw [Node.walkAll, Node.walkAll, List.append_nil] at hm
      rcases Node.mem_walk_cases hm with rfl | ⟨part, hpart, hbelow⟩
      · exact absurd rfl hkind
      · exact Node.mem_walk_of_child (List.mem_cons_of_mem _ hpart) hbelow
  · refine Node.mem_walk_of_child (List.mem_cons_of_mem _ (List.mem_singleton_self _)) ?_
    exact List.mem_cons_of_mem _ hm

theorem mem_walkAll_wrappedBody {f : Found} (o : WrapOptions) (source : List Char)
    (hm : m ∈ Node.walkAll (wrapTexts o source false f.candidate.body)) (hkind : m.kind ≠ .block) :
    m ∈ Node.walkAll (f.wrappedBody o source) := by
  simp only [Found.wrappedBody]
  split
  · exact List.mem_append_left _ (mem_walk_withHook o.space hm hkind)
  · exact hm

/-! ### Keys of a module -/

section

variable (o : WrapOptions) (source : List Char)

/-- A key is still found when the components in a node are wrapped, unless its call is in a component and
disturbed there. -/
theorem exists_key_in_wrapCandidates : ∀ (scopes : ScopeStack) (n m : Node) (key : String)
    (text : Option String), n.InPlace → m ∈ n.walk →
      Occurrence.keyOfCall? m = some (key, text) →
      (∃ m' ∈ (wrapCandidates o source scopes n).walk,
          Occurrence.keyOfCall? m' = some (key, text)) ∨
        ∃ f ∈ findCandidates scopes n, f.changes o source = true ∧ m ∈ f.candidate.body.walk ∧
          o.disturbs m key text = true
  | scopes, .mk kind span children, m, key, text, hn, hm, hkey => by
      have hcall := kind_of_keyOfCall? hkey
      cases hc : Candidate.ofNode? (.mk kind span children) with
      | some c =>
          simp only [wrapCandidates, findCandidates, hc]
          cases hempty : (c.literals source o.classifier).isEmpty with
          | true => exact .inl ⟨m, hm, hkey⟩
          | false =>
              obtain ⟨g, hnamed, -, hbody, -⟩ := exists_function_of_ofNode? hc
              rw [if_neg Bool.false_ne_true]
              generalize hwrapped : (Found.mk c scopes).wrappedBody o source = wrapped
              -- Of a component only the body is exchanged, so the call stays or is in the body.
              rcases mem_walk_withCandidateBody wrapped hn hnamed hbody hm hcall with
                hstays | hinside
              · exact .inl ⟨m, hstays, hkey⟩
              · cases hdisturbed : o.disturbs m key text with
                | true =>
                    refine .inr ⟨⟨c, scopes⟩, List.mem_singleton_self _, ?_, hinside, rfl⟩
                    simp [Found.changes, hempty]
                | false =>
                    have hplaced : c.body.InPlace := by
                      obtain ⟨way, hway, hend, -⟩ := Candidate.exists_way_of_ofNode? hc
                      rw [← hend]
                      exact hn.endOf hway
                    obtain ⟨m', hm', hkey'⟩ := exists_key_in_wrapTexts o source false c.body m key
                      text hplaced hinside hkey hdisturbed
                    have hmem := mem_walkAll_wrappedBody (f := ⟨c, scopes⟩) o source hm'
                      (by rw [kind_of_keyOfCall? hkey']; nofun)
                    rw [hwrapped] at hmem
                    exact .inl ⟨m', mem_walk_withCandidateBody_of_mem hnamed hbody hmem, hkey'⟩
      | none =>
          by_cases htype : kind = .type
          · subst htype
            simp only [wrapCandidates, hc, beq_self_eq_true, if_true]
            exact .inl ⟨m, hm, hkey⟩
          · have hkeys := keyOfCall?_wrapCandidates o source scopes (.mk kind span children)
            rw [wrapCandidates_of_none o source hc htype, wrapCandidatesAll_eq_map] at hkeys ⊢
            have hkind : (kind == .type) = false := by simpa using htype
            rcases Node.mem_walk_cases hm with rfl | ⟨part, hpart, hbelow⟩
            · exact .inl ⟨_, Node.mem_walk_self _, hkeys.trans hkey⟩
            · rcases exists_key_in_wrapCandidates (scopesInside scopes (.mk kind span children)) part
                m key text (hn.child hpart) hbelow hkey with ⟨m', hm', hkey'⟩ | ⟨f, hf, hlost⟩
              · exact .inl ⟨m', Node.mem_walk_of_child (List.mem_map_of_mem hpart) hm', hkey'⟩
              · refine .inr ⟨f, ?_, hlost⟩
                simp only [findCandidates, hc, hkind]
                rw [if_neg Bool.false_ne_true, findCandidatesAll_eq_flatMap]
                exact List.mem_flatMap.mpr ⟨part, hpart, hf⟩

theorem exists_key_in_wrappedModule {module m : Node} {key : String} {text : Option String}
    (hmodule : module.InPlace) (hkind : module.kind ≠ .call) (hm : m ∈ module.walk)
    (hkey : Occurrence.keyOfCall? m = some (key, text)) :
    (∃ m' ∈ (wrappedModule o source module).walk, Occurrence.keyOfCall? m' = some (key, text)) ∨
      ∃ f ∈ moduleCandidates module, f.changes o source = true ∧ m ∈ f.candidate.body.walk ∧
        o.disturbs m key text = true := by
  have hcall := kind_of_keyOfCall? hkey
  rcases Node.mem_walk_cases hm with rfl | ⟨item, hitem, hbelow⟩
  · exact absurd hcall hkind
  · rcases exists_key_in_wrapCandidates o source
      (ScopeStack.empty.declare (Node.moduleNames module.children)) item m key text
      (hmodule.child hitem) hbelow hkey with ⟨m', hm', hkey'⟩ | ⟨f, hf, hlost⟩
    · refine .inl ⟨m', List.mem_cons_of_mem _ ?_, hkey'⟩
      have hwrapped : m' ∈ Node.walkAll (wrapCandidatesAll o source
          (ScopeStack.empty.declare (Node.moduleNames module.children)) module.children) := by
        rw [Node.walkAll_eq_flatMap, wrapCandidatesAll_eq_map]
        exact List.mem_flatMap.mpr ⟨_, List.mem_map_of_mem hitem, hm'⟩
      split
      · exact hwrapped
      · refine mem_walk_withHookImport hwrapped fun space => ?_
        simp [isValueImportFrom, kind_of_keyOfCall? hkey']
    · refine .inr ⟨f, ?_, hlost⟩
      rw [moduleCandidates, findCandidatesAll_eq_flatMap]
      exact List.mem_flatMap.mpr ⟨item, hitem, hf⟩

end

theorem mem_collect_iff {path : String} {source : List Char} {tree : Node} {x : Occurrence} :
    x ∈ Occurrence.collect path source tree ↔
      ∃ n ∈ tree.walk, Occurrence.ofNode? path source n = some x :=
  List.mem_filterMap

theorem occurrences_of_parseFile {path : String} {source : List Char} {tree : Node}
    (h : Source.parseFile path source = .ok tree) :
    Extraction.occurrences ⟨path, source⟩ = .ok (Occurrence.collect path source tree) := by
  simp only [Extraction.occurrences, h]

theorem keyOfCall?_of_ofNode? {path : String} {source : List Char} {n : Node} {x : Occurrence}
    (h : Occurrence.ofNode? path source n = some x) :
    Occurrence.keyOfCall? n = some (x.key, x.default) := by
  simp only [Occurrence.ofNode?, Option.map_eq_some_iff, Prod.exists] at h
  obtain ⟨key, text, hkey, rfl⟩ := h
  exact hkey

theorem exists_ofNode?_of_keyOfCall? (path : String) (source : List Char) {n : Node} {key : String}
    {text : Option String} (h : Occurrence.keyOfCall? n = some (key, text)) :
    ∃ y, Occurrence.ofNode? path source n = some y ∧ y.key = key ∧ y.default = text := by
  simp only [Occurrence.ofNode?, h, Option.map_some]
  exact ⟨_, rfl, rfl, rfl⟩

/-- Where the output of a wrapping reads as is meant, each key that is found in the source, with its
default text, is found in the output too, unless its call stands in a component that is on record as
changed, and its key is the argument of a method and a text to be wrapped, or its default text is one. -/
theorem wrapSource_keeps_keys {o : WrapOptions} {path : String} {source : List Char}
    {w : WrappedSource} (h : wrapSource? o path source = .ok (some w))
    (hback : ReadsBack o path source w.output) :
    ∃ module found again, Source.parseFile path source = .ok module ∧
      Extraction.occurrences ⟨path, source⟩ = .ok found ∧
      Extraction.occurrences ⟨path, w.output⟩ = .ok again ∧
      ∀ x ∈ found, (∃ y ∈ again, y.key = x.key ∧ y.default = x.default) ∨
        ∃ f ∈ moduleCandidates module, ⟨f.candidate.name, f.needsHook⟩ ∈ w.changes.components ∧
          ∃ n ∈ f.candidate.body.walk, Occurrence.ofNode? path source n = some x ∧
            o.disturbs n x.key x.default = true := by
  obtain ⟨module, output, hmodule, houtput, halike⟩ := hback
  obtain ⟨module', hmodule', -, hchanges, -⟩ := wrapSource?_eq_some h
  rw [hmodule, Except.ok.injEq] at hmodule'
  subst hmodule'
  obtain ⟨hplaced, hkind⟩ := Source.Parser.placed_parseFile hmodule
  refine ⟨module, Occurrence.collect path source module, Occurrence.collect path w.output output,
    hmodule, occurrences_of_parseFile hmodule, occurrences_of_parseFile houtput, ?_⟩
  intro x hx
  obtain ⟨n, hn, hnode⟩ := mem_collect_iff.mp hx
  rcases exists_key_in_wrappedModule o source hplaced.inPlace (by rw [hkind]; nofun) hn
    (keyOfCall?_of_ofNode? hnode) with ⟨m, hm, hkey⟩ | ⟨f, hf, hchanged, hinside, hdisturbed⟩
  · -- The call of the wrapped tree has one that is alike in the output.
    obtain ⟨way, hway, rfl⟩ := Node.exists_way_of_mem_walk _ m hm
    obtain ⟨way', hway', hsame, -⟩ := exists_way_alike (alike_symm halike) hway
    rw [keyOfCall?_alike hsame] at hkey
    obtain ⟨y, hy, hyKey, hyDefault⟩ := exists_ofNode?_of_keyOfCall? path w.output hkey
    refine .inl ⟨y, mem_collect_iff.mpr ⟨_, ?_, hy⟩, hyKey, hyDefault⟩
    exact Node.mem_walk_of_isWay hway' (Node.endOf_mem output way')
  · refine .inr ⟨f, hf, ?_, n, hinside, hnode, hdisturbed⟩
    rw [hchanges, components_wrapModule]
    exact List.mem_map.mpr ⟨f, List.mem_filter.mpr ⟨hf, hchanged⟩, rfl⟩

/-- A component with keys of all sorts: of a method, with a default text to be wrapped, and with one that
is none. -/
def keysInComponent : List Char :=
  ("function A() \x7b return [i18n.t(\"안녕\", \x7b defaultValue: \"x\" \x7d), " ++
    "t(\"k\", \x7b defaultValue: \"기본\" \x7d), t(\"가\", \x7b defaultValue: \"x\" \x7d)]; \x7d\n").toList

/-- Whether no call with a key and a default text in the components of a module is disturbed. -/
def staysInComponents (o : WrapOptions) (module : Node) (key : String) (text : Option String) : Bool :=
  (moduleCandidates module).all fun f => f.candidate.body.walk.all fun n =>
    Occurrence.keyOfCall? n != some (key, text) || !o.disturbs n key text

theorem wrapSource_keeps_keys_keysInComponent :
    ∃ (w : WrappedSource) (found again : List Occurrence),
      wrapSource? (koreanOptions none) "a.tsx" keysInComponent = .ok (some w) ∧
        ReadsBack (koreanOptions none) "a.tsx" keysInComponent w.output ∧
        Extraction.occurrences ⟨"a.tsx", keysInComponent⟩ = .ok found ∧
        Extraction.occurrences ⟨"a.tsx", w.output⟩ = .ok again ∧
        ∃ x ∈ found, x.key = "가" ∧ x.default = some "x" ∧
          ∃ y ∈ again, y.key = x.key ∧ y.default = x.default := by
  obtain ⟨w, hrun, hw⟩ := exists_wrapped (koreanOptions none) "a.tsx" keysInComponent
    (p := fun w => (Source.parseFile "a.tsx" keysInComponent).toOption.any fun module =>
      (Source.parseFile "a.tsx" w.output).toOption.any fun again =>
        alike w.output keysInComponent again
          (wrappedModule (koreanOptions none) keysInComponent module)) (by decide +kernel)
  obtain ⟨module, hmodule, hkeys⟩ := exists_module "a.tsx" keysInComponent
    (p := fun module => staysInComponents (koreanOptions none) module "가" (some "x") &&
      (Occurrence.collect "a.tsx" keysInComponent module).any fun x =>
        x.key == "가" && x.default == some "x") (by decide +kernel)
  have hback := readsBack_iff_any.mpr hw
  obtain ⟨module', found, again, hmodule', hfound, hagain, hkept⟩ :=
    wrapSource_keeps_keys hrun hback
  rw [hmodule, Except.ok.injEq] at hmodule'
  subst hmodule'
  rw [Bool.and_eq_true, List.any_eq_true] at hkeys
  obtain ⟨hstays, x, hx, hpair⟩ := hkeys
  simp only [Bool.and_eq_true, beq_iff_eq] at hpair
  obtain ⟨hkey, hdefault⟩ := hpair
  have hmem : x ∈ found := by
    rw [occurrences_of_parseFile hmodule, Except.ok.injEq] at hfound
    rwa [← hfound]
  refine ⟨w, found, again, hrun, hback, hfound, hagain, x, hmem, hkey, hdefault, ?_⟩
  rcases hkept x hmem with hout | ⟨f, hf, -, n, hn, hnode, hdisturbed⟩
  · exact hout
  · have hcall := keyOfCall?_of_ofNode? hnode
    rw [hkey, hdefault] at hcall hdisturbed
    have hno := List.all_eq_true.mp (List.all_eq_true.mp hstays f hf) n hn
    rw [hcall, hdisturbed] at hno
    simp at hno

/-- Wrapping may lose a key with its default text. -/
theorem wrapSource_not_always_keeps_keys :
    ¬ ∀ (o : WrapOptions) (path : String) (source : List Char) (w : WrappedSource)
      (found again : List Occurrence), wrapSource? o path source = .ok (some w) →
        Extraction.occurrences ⟨path, source⟩ = .ok found →
        Extraction.occurrences ⟨path, w.output⟩ = .ok again →
        ∀ x ∈ found, ∃ y ∈ again, y.key = x.key ∧ y.default = x.default := by
  intro hall
  obtain ⟨w, hrun, hw⟩ := exists_wrapped (koreanOptions none) "a.tsx" keysInComponent
    (p := fun w => (Source.parseFile "a.tsx" w.output).toOption.any fun again =>
      (Occurrence.collect "a.tsx" w.output again).all fun y =>
        !(y.key == "안녕" && y.default == some "x")) (by decide +kernel)
  obtain ⟨module, hmodule, hfound⟩ := exists_module "a.tsx" keysInComponent
    (p := fun module => (Occurrence.collect "a.tsx" keysInComponent module).any fun x =>
      x.key == "안녕" && x.default == some "x") (by decide +kernel)
  obtain ⟨output, houtput, hlost⟩ := exists_module _ _ hw
  obtain ⟨x, hx, hpair⟩ := List.any_eq_true.mp hfound
  obtain ⟨y, hy, hkey, hdefault⟩ := hall _ _ _ w _ _ hrun (occurrences_of_parseFile hmodule)
    (occurrences_of_parseFile houtput) x hx
  have hno := List.all_eq_true.mp hlost y hy
  rw [hkey, hdefault, hpair] at hno
  exact Bool.noConfusion hno

end Localization
