import Localization.Proofs.Component.Emitted
import Localization.Proofs.Component.Redeclared
import Localization.Proofs.Component.SameScope
import Localization.Proofs.Source.Grammar.Module

/-!
Which lookup function an emitted call refers to. A component that receives the hook declares the function
at the top of its body, but texts are wrapped in nested scopes too, and these may have the name
themselves. Main statement: `wrapSource_captures_iff`.
-/

namespace Localization

open Source (Node Kind Span ScopeStack)

/-! ### Bodies with the hook -/

theorem isBody_withHook (space : Option String) (body : List Node) :
    isBody (withHook space body) = true := by
  unfold withHook
  split
  · rfl
  · rfl

theorem exists_withHook_eq (space : Option String) (body : List Node) :
    ∃ span rest, withHook space body = .mk .block span (hookNode space :: rest) := by
  unfold withHook
  split
  · exact ⟨_, _, rfl⟩
  · exact ⟨_, _, rfl⟩

/-- The nodes around a text that stand inside the body of a component, below the hook. -/
def Candidate.around (c : Candidate) (way : List Node) : List Node :=
  if c.hasBlock then way else c.body :: way

section

variable (o : WrapOptions) (source : List Char)

theorem wrapTexts_ne_block {n : Node} (translated : Bool)
    (hkind : n.kind ≠ .block) (span : Span) (children : List Node) :
    wrapTexts o source translated n ≠ [.mk .block span children] := by
  intro h
  rcases wrapTexts_cases o source translated n with hsame | ⟨l, -, -, hnew⟩ | hinside
  · rw [hsame, List.cons.injEq] at h
    exact hkind (congrArg Node.kind h.1)
  · have hmem : Node.mk .block span children ∈ l.nodes o.generator source n.span := by
      rw [← hnew, h]
      exact List.mem_singleton_self _
    have hblock := (declaresNothing_of_mem_nodes hmem).kind_beq (.inr (.inl rfl))
    simp at hblock
  · rw [hinside, List.cons.injEq, Node.mk.injEq] at h
    exact hkind h.1.1

/-- In a wrapped body with the hook there is a way to the call in the place of each text, and below the
body it binds the same names as the way to the text. -/
theorem exists_way_in_withHook {c : Candidate} {l : Literal} (hbody : c.body.InPlace)
    (hl : l ∈ c.literals source o.classifier) :
    ∃ way, c.body.IsWay way ∧ Literal.ofNode? source (c.body.endOf way) = some l ∧
      ∃ inside, (withHook o.space (wrapTexts o source false c.body)).IsWay inside ∧
        (withHook o.space (wrapTexts o source false c.body)).endOf inside =
          callNode lookupName (some (o.keyOf l)) ∧
        ∀ name, Node.rebinds name (c.around way) = Node.rebinds name inside := by
  obtain ⟨hcollect, haccepts⟩ := List.mem_filter.mp hl
  rcases c with ⟨name, body, bindings⟩
  cases hblock : body.kind == .block with
  | true =>
      cases body with
      | mk kind span children =>
          obtain rfl : kind = .block := beq_iff_eq.mp hblock
          replace hcollect : l ∈ Literal.collectAll source false children := hcollect
          rw [Literal.collectAll_eq_flatMap] at hcollect
          obtain ⟨part, hpart, hinside⟩ := List.mem_flatMap.mp hcollect
          obtain ⟨way, hway, hend, m, hm, way', hway', hend', hscopes⟩ :=
            exists_way_to_call o source false part l (hbody.child hpart) hinside haccepts
          have hmem : m ∈ wrapTextsAll o source false children := by
            rw [wrapTextsAll_eq_flatMap]
            exact List.mem_flatMap.mpr ⟨part, hpart, hm⟩
          refine ⟨part :: way, ⟨hpart, hway⟩, hend, m :: way',
            ⟨List.mem_cons_of_mem _ hmem, hway'⟩, hend', ?_⟩
          intro other
          exact hscopes.rebinds other
  | false =>
      -- The way to the call leads through a `return` that binds nothing.
      obtain ⟨way, hway, hend, m, hm, way', hway', hend', hscopes⟩ :=
        exists_way_to_call o source false body l hbody hcollect haccepts
      have hreturns : withHook o.space (wrapTexts o source false body) =
          newNode .block [hookNode o.space,
            newNode .returnStatement (wrapTexts o source false body)] := by
        have hne := wrapTexts_ne_block o source false (by simpa using hblock)
        unfold withHook
        split
        · next span children heq => exact absurd heq (hne span children)
        · rfl
      rw [hreturns]
      refine ⟨way, hway, hend,
        newNode .returnStatement (wrapTexts o source false body) :: m :: way', ⟨?_, hm, hway'⟩,
        hend', ?_⟩
      · exact List.mem_cons_of_mem _ (List.mem_singleton_self _)
      · intro other
        have hsource : (Candidate.mk name body bindings).around way = body :: way := by
          simp [Candidate.around, Candidate.hasBlock, hblock]
        rw [hsource, hscopes.rebinds other]
        rfl

/-! ### Components of a wrapped module -/

/-- A component that receives the hook is still there in the wrapped tree, and its body is the wrapped
one with the hook. -/
theorem exists_named_in_wrapCandidates : ∀ (scopes : ScopeStack) (n : Node) (f : Found),
    f ∈ findCandidates scopes n → f.changes o source = true → f.needsHook = true →
      ∃ n' ∈ (wrapCandidates o source scopes n).walk, ∃ g, NamesFunction n' f.candidate.name g ∧
        g.body? = some (withHook o.space (wrapTexts o source false f.candidate.body))
  | scopes, .mk kind span children, f, hf, hchanges, hhook => by
      cases hc : Candidate.ofNode? (.mk kind span children) with
      | some c =>
          simp only [findCandidates, hc, List.mem_singleton] at hf
          subst hf
          have hempty : (c.literals source o.classifier).isEmpty = false := by
            simpa [Found.changes] using hchanges
          obtain ⟨g, hnamed, -, hbody, -⟩ := exists_function_of_ofNode? hc
          simp only [wrapCandidates, hc, hempty, Found.wrappedBody, hhook, if_true]
          refine ⟨_, Node.mem_walk_self _, _, hnamed.withBody _, ?_⟩
          exact body?_withBody (by rw [hbody]; rfl) (isBody_withHook _ _)
      | none =>
          simp only [findCandidates, hc] at hf
          split at hf
          · simp at hf
          · next htype =>
              rw [findCandidatesAll_eq_flatMap] at hf
              obtain ⟨part, hpart, hfound⟩ := List.mem_flatMap.mp hf
              obtain ⟨n', hn', hnamed⟩ :=
                exists_named_in_wrapCandidates _ part f hfound hchanges hhook
              refine ⟨n', ?_, hnamed⟩
              rw [wrapCandidates_of_none o source hc (by simpa using htype),
                wrapCandidatesAll_eq_map]
              exact Node.mem_walk_of_child (List.mem_map_of_mem hpart) hn'

/-- Adding the import of the hook leaves every node that is no import. -/
theorem mem_walk_withHookImport {space : String} {items : List Node} {n : Node}
    (hn : n ∈ Node.walkAll items) (hkind : ∀ space, isValueImportFrom space n = false) :
    n ∈ Node.walkAll (withHookImport space items) := by
  have hextend : ∀ items : List Node, n ∈ Node.walkAll items →
      n ∈ Node.walkAll (extendFirst space items) := by
    intro items
    induction items with
    | nil => exact fun h => h
    | cons item rest ih =>
        intro h
        rw [extendFirst]
        split
        · next hitem =>
            rw [Bool.and_eq_true] at hitem
            rw [Node.walkAll, List.mem_append] at h ⊢
            refine h.imp_left fun hin => ?_
            rcases Node.mem_walk_cases hin with rfl | ⟨part, hpart, hbelow⟩
            · rw [hkind space] at hitem
              exact absurd hitem.1 Bool.false_ne_true
            · refine Node.mem_walk_of_child ?_ hbelow
              have hparts := perm_children_withHookSpecifier hitem.2
              exact hparts.mem_iff.mpr (List.mem_cons_of_mem _ hpart)
        · rw [Node.walkAll, List.mem_append] at h ⊢
          exact h.imp_right ih
  simp only [withHookImport]
  split
  · exact hn
  · split
    · exact hextend items hn
    · rw [Node.walkAll_eq_flatMap, List.mem_flatMap] at hn ⊢
      obtain ⟨item, hitem, hbelow⟩ := hn
      refine ⟨item, ?_, hbelow⟩
      rw [← List.takeWhile_append_dropWhile (p := Node.isStringStatement) (l := items)] at hitem
      rcases List.mem_append.mp hitem with hbefore | hbehind
      · exact List.mem_append_left _ hbefore
      · exact List.mem_append_right _ (List.mem_cons_of_mem _ hbehind)

theorem exists_named_in_wrappedModule {module : Node} {f : Found}
    (hf : f ∈ hookedCandidates o source module) :
    ∃ n ∈ (wrappedModule o source module).walk, ∃ g, NamesFunction n f.candidate.name g ∧
      g.body? = some (withHook o.space (wrapTexts o source false f.candidate.body)) := by
  obtain ⟨hmem, hhooked⟩ := List.mem_filter.mp hf
  obtain ⟨hchanges, hneeds⟩ := Bool.and_eq_true_iff.mp hhooked
  have hcount : (wrapModule o source module).hookCount ≠ 0 :=
    Nat.pos_iff_ne_zero.mp (hookCount_wrapModule_pos.mpr ⟨f, hmem, hchanges, hneeds⟩)
  rw [moduleCandidates, findCandidatesAll_eq_flatMap] at hmem
  obtain ⟨item, hitem, hfound⟩ := List.mem_flatMap.mp hmem
  obtain ⟨n, hn, g, hnamed, hbody⟩ :=
    exists_named_in_wrapCandidates o source _ item f hfound hchanges hneeds
  refine ⟨n, List.mem_cons_of_mem _ ?_, g, hnamed, hbody⟩
  rw [if_neg hcount]
  refine mem_walk_withHookImport ?_ ?_
  · rw [Node.walkAll_eq_flatMap, wrapCandidatesAll_eq_map]
    exact List.mem_flatMap.mpr ⟨_, List.mem_map_of_mem hitem, hn⟩
  · intro space
    cases hnamed <;> rfl

end

/-! ### Components and calls of the output -/

/-- A component of an output whose body is a block that begins with the hook. -/
structure HasHook (o : WrapOptions) (source output : List Char) (name : String) (again : Node)
    (outer : List Node) (body : Node) : Prop where
  isWay : again.IsWay (outer ++ [body])
  isBody : ∃ n ∈ again :: outer, ∃ g, NamesFunction n name g ∧ g.body? = some body
  isBlock : body.kind = .block
  hook : body.children.head?.any (fun first => alike output source first (hookNode o.space)) = true

/-- A text of a component stands at the end of a way into the body, and the call in its place at the end
of a way into the body of the output. -/
structure WrappedAt (o : WrapOptions) (source output : List Char) (c : Candidate) (body : Node)
    (l : Literal) (way inside : List Node) : Prop where
  isWay : c.body.IsWay way
  isLiteral : Literal.ofNode? source (c.body.endOf way) = some l
  isWayToCall : body.IsWay inside
  isCall : alike output source (body.endOf inside) (callNode lookupName (some (o.keyOf l))) = true

theorem mem_lexicalNames_hookNode (space : Option String) :
    lookupName ∈ (hookNode space).lexicalNames :=
  List.mem_singleton_self _

variable {first second : List Char}

theorem isBlock_alike {n n' : Node} (h : alike first second n n' = true)
    (hn : n.kind = .block) : n'.kind = .block :=
  (alike_iff.mp h).1.symm.trans hn

/-- A function that a node of an output names stands, with its body, below the node. -/
theorem exists_way_to_body {again n g body : Node} {name : String} (hn : n ∈ again.walk)
    (hnamed : NamesFunction n name g) (hbody : g.body? = some body) :
    ∃ outer, again.IsWay (outer ++ [body]) ∧ n ∈ again :: outer := by
  obtain ⟨above, habove, rfl⟩ := Node.exists_way_of_mem_walk again n hn
  obtain ⟨between, hbetween, rfl⟩ := hnamed.exists_way
  refine ⟨above ++ between, ?_, ?_⟩
  · refine Node.isWay_append (Node.isWay_append habove hbetween) ⟨?_, trivial⟩
    rw [Node.endOf_append]
    exact List.mem_of_find?_eq_some hbody
  · rw [← List.cons_append]
    exact List.mem_append_left _ (Node.endOf_mem again above)

theorem replacementEdit_mem_edits {o : WrapOptions} {source : List Char} {module : Node} {f : Found}
    {l : Literal} (hf : f ∈ hookedCandidates o source module)
    (hl : l ∈ f.candidate.literals source o.classifier) :
    replacementEdit l (o.keyOf l) ∈ (wrapModule o source module).edits := by
  obtain ⟨hmem, hhooked⟩ := List.mem_filter.mp hf
  rw [edits_wrapModule]
  refine List.mem_flatMap.mpr ⟨f, List.mem_filter.mpr ⟨hmem, (Bool.and_eq_true_iff.mp hhooked).1⟩, ?_⟩
  exact List.mem_append_left _ (List.mem_map_of_mem hl)

theorem inPlace_body {module : Node} {f : Found} (hmodule : module.InPlace)
    (hf : f ∈ moduleCandidates module) : f.candidate.body.InPlace := by
  obtain ⟨n, hn, hnode⟩ := exists_node_of_mem_moduleCandidates hf
  obtain ⟨way, hway, hend, -⟩ := Candidate.exists_way_of_ofNode? hnode
  rw [← hend]
  exact (hmodule.of_mem_walk hn).endOf hway

/-- Where the output of a wrapping reads as is meant, each component that received the hook has it at the
top of its body. The call in the place of a text of the component refers to this hook, the innermost
node on the way to the call that binds the name, exactly if no node around the text inside the body of
the component binds the name. -/
theorem wrapSource_captures_iff {o : WrapOptions} {path : String} {source : List Char}
    {w : WrappedSource} {module : Node} (h : wrapSource? o path source = .ok (some w))
    (hmodule : Source.parseFile path source = .ok module)
    (hback : ReadsBack o path source w.output) :
    ∃ again, Source.parseFile path w.output = .ok again ∧
      ∀ f ∈ hookedCandidates o source module, ∃ outer body,
        HasHook o source w.output f.candidate.name again outer body ∧
        ∀ l ∈ f.candidate.literals source o.classifier,
          replacementEdit l (o.keyOf l) ∈ w.changes.edits ∧
          ∃ way inside, WrappedAt o source w.output f.candidate body l way inside ∧
            ((f.candidate.around way).all (fun n => !n.kind.hasOpenScope) = true →
              (Node.binder? lookupName (again :: (outer ++ body :: inside)) =
                  some (body :: inside) ↔
                Node.rebinds lookupName (f.candidate.around way) = false)) := by
  obtain ⟨module', hparse, -, hchanges, -⟩ := wrapSource?_eq_some h
  rw [hmodule, Except.ok.injEq] at hparse
  subst hparse
  obtain ⟨module', again, hparse, hagain, halike⟩ := hback
  rw [hmodule, Except.ok.injEq] at hparse
  subst hparse
  refine ⟨again, hagain, ?_⟩
  intro f hf
  -- The component of the wrapped tree, and the node of the output that is alike.
  obtain ⟨n, hn, g, hnamed, hbody⟩ := exists_named_in_wrappedModule o source hf
  obtain ⟨above, habove, rfl⟩ := Node.exists_way_of_mem_walk _ n hn
  obtain ⟨above', habove', hsame, -⟩ := exists_way_alike (alike_symm halike) habove
  obtain ⟨g', hnamed', hfunctions⟩ := hnamed.alike hsame
  obtain ⟨body, hbody', hbodies⟩ := body?_alike hfunctions hbody
  have hnode := Node.mem_walk_of_isWay habove' (Node.endOf_mem again above')
  obtain ⟨outer, hway, houter⟩ := exists_way_to_body hnode hnamed' hbody'
  obtain ⟨span, rest, hhook⟩ :=
    exists_withHook_eq o.space (wrapTexts o source false f.candidate.body)
  have hkind : body.kind = .block := isBlock_alike hbodies (by rw [hhook]; rfl)
  -- The hook declares the name in the body itself, so that no binder further out counts.
  have hnames : ∀ t, lookupName ∈ body.scopeAt t := by
    intro t
    rw [← (sameNames_alike hbodies).scopeAt_eq t, hhook]
    exact List.mem_append_left _ (mem_lexicalNames_hookNode o.space)
  refine ⟨outer, body, ⟨hway, ⟨_, houter, g', hnamed', hbody'⟩, hkind, ?_⟩, ?_⟩
  · have hparts := (alike_iff.mp (alike_symm hbodies)).2.2
    rw [hhook, Node.children_mk] at hparts
    cases hchildren : body.children with
    | nil => simp [hchildren, alikeAll] at hparts
    | cons first more =>
        rw [hchildren, alikeAll, Bool.and_eq_true] at hparts
        simpa using hparts.1
  · intro l hl
    have hplaced := inPlace_body (Source.Parser.inPlace_parseFile hmodule)
      (List.mem_filter.mp hf).1
    obtain ⟨way, hsource, hliteral, inside, hinside, hend, hscopes⟩ :=
      exists_way_in_withHook o source hplaced hl
    obtain ⟨inside', hinside', hcall, hsame'⟩ := exists_way_alike hbodies hinside
    rw [hend] at hcall
    refine ⟨hchanges ▸ replacementEdit_mem_edits hf hl, way, inside',
      ⟨hsource, hliteral, hinside', alike_symm hcall⟩, ?_⟩
    intro _
    rw [hscopes lookupName, hsame'.rebinds lookupName]
    rw [← List.cons_append]
    exact Node.binder?_append_cons (hnames _)

/-- A component with a text in a function that has a parameter of the name of the lookup function. -/
def textInCallback : List Char :=
  "function A() \x7b return xs.map(t => <p>안녕</p>); \x7d\n".toList

/-- Whether each way to a text of a component leads through a node that binds the lookup function. -/
def rebindsAll (source : List Char) (c : Candidate) : Bool :=
  c.body.ways.all fun way => !(Literal.ofNode? source (c.body.endOf way)).isSome ||
    ((c.around way).all (fun n => !n.kind.hasOpenScope) &&
      Node.rebinds lookupName (c.around way))

theorem wrapSource_captures_textInCallback :
    ∃ (w : WrappedSource) (module again : Node),
      wrapSource? (koreanOptions none) "a.tsx" textInCallback = .ok (some w) ∧
        Source.parseFile "a.tsx" textInCallback = .ok module ∧
        ReadsBack (koreanOptions none) "a.tsx" textInCallback w.output ∧
        Source.parseFile "a.tsx" w.output = .ok again ∧
        ∃ f ∈ hookedCandidates (koreanOptions none) textInCallback module, ∃ outer body,
          HasHook (koreanOptions none) textInCallback w.output f.candidate.name again outer body ∧
          ∃ l ∈ f.candidate.literals textInCallback (koreanOptions none).classifier,
            ∃ way inside,
              WrappedAt (koreanOptions none) textInCallback w.output f.candidate body l way inside ∧
              Node.binder? lookupName (again :: (outer ++ body :: inside)) ≠
                some (body :: inside) := by
  obtain ⟨w, hrun, hw⟩ := exists_wrapped (koreanOptions none) "a.tsx" textInCallback
    (p := fun w => (Source.parseFile "a.tsx" textInCallback).toOption.any fun module =>
      (Source.parseFile "a.tsx" w.output).toOption.any fun again =>
        alike w.output textInCallback again (wrappedModule (koreanOptions none) textInCallback module))
    (by decide +kernel)
  obtain ⟨module, hmodule, hhooked⟩ := exists_module "a.tsx" textInCallback
    (p := fun module => (hookedCandidates (koreanOptions none) textInCallback module).any fun f =>
      !(f.candidate.literals textInCallback (koreanOptions none).classifier).isEmpty &&
        rebindsAll textInCallback f.candidate) (by decide +kernel)
  have hback := readsBack_iff_any.mpr hw
  obtain ⟨again, hagain, hcomponents⟩ := wrapSource_captures_iff hrun hmodule hback
  obtain ⟨f, hf, htexts⟩ := List.any_eq_true.mp hhooked
  rw [Bool.and_eq_true, Bool.not_eq_true', List.isEmpty_eq_false_iff_exists_mem] at htexts
  obtain ⟨⟨l, hl⟩, hall⟩ := htexts
  obtain ⟨outer, body, hhook, hcalls⟩ := hcomponents f hf
  obtain ⟨-, way, inside, hplaced, hiff⟩ := hcalls l hl
  have hway := List.all_eq_true.mp hall way (Node.mem_ways_iff.mpr hplaced.isWay)
  rw [hplaced.isLiteral, Option.isSome_some, Bool.not_true, Bool.false_or, Bool.and_eq_true] at hway
  refine ⟨w, module, again, hrun, hmodule, hback, hagain, f, hf, outer, body, hhook, l, hl, way,
    inside, hplaced, ?_⟩
  intro hbinder
  have hfalse := (hiff hway.1).mp hbinder
  rw [hway.2] at hfalse
  exact Bool.noConfusion hfalse

/-- Whether the innermost node on a way that binds the lookup function begins with the hook. -/
def refersToHook (o : WrapOptions) (source output : List Char) (way : List Node) : Bool :=
  (Node.binder? lookupName way).any fun found => found.head?.any fun n =>
    n.children.head?.any fun first => alike output source first (hookNode o.space)

/-- An emitted call need not refer to the hook: the function around it may have a parameter of the
name. -/
theorem wrapSource_not_always_refers_to_hook :
    ¬ ∀ (o : WrapOptions) (path : String) (source : List Char) (w : WrappedSource)
      (module again : Node), wrapSource? o path source = .ok (some w) →
        Source.parseFile path source = .ok module → module.walk.any callsLookup = false →
        (w.changes.components.all fun m => m.hookInserted) = true →
        Source.parseFile path w.output = .ok again →
        ∀ way, again.IsWay way → callsLookup (again.endOf way) = true →
          refersToHook o source w.output (again :: way) = true := by
  intro hall
  obtain ⟨w, hrun, hw⟩ := exists_wrapped (koreanOptions none) "a.tsx" textInCallback
    (p := fun w => w.changes.components.all (fun m => m.hookInserted) &&
      (Source.parseFile "a.tsx" w.output).toOption.any fun again => again.ways.any fun way =>
        callsLookup (again.endOf way) &&
          !refersToHook (koreanOptions none) textInCallback w.output (again :: way))
    (by decide +kernel)
  obtain ⟨module, hmodule, hnone⟩ := exists_module "a.tsx" textInCallback
    (p := fun m => !m.walk.any callsLookup) (by decide +kernel)
  rw [Bool.and_eq_true] at hw
  obtain ⟨hhooked, houtput⟩ := hw
  obtain ⟨again, hagain, hcaptured⟩ := exists_module _ _ houtput
  obtain ⟨way, hway, hcall⟩ := List.any_eq_true.mp hcaptured
  rw [Bool.and_eq_true, Bool.not_eq_true'] at hcall
  have hrefers := hall _ _ _ w module again hrun hmodule (by simpa using hnone) hhooked hagain way
    (Node.mem_ways_iff.mp hway) hcall.1
  rw [hcall.2] at hrefers
  exact Bool.noConfusion hrefers

end Localization
