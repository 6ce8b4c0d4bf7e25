import Localization.Proofs.Component.HookImport
import Localization.Proofs.Component.Idempotence
import Localization.Proofs.Source.Resolution
import Localization.Proofs.Source.Text

/-!
Scopes in a wrapped component. Wrapping the texts of a component changes no name that a node of it binds,
so the ways to a text and to the call in its place bind the same names. Main statements:
`exists_way_to_call`, `exists_way_alike`.
-/

namespace Localization

open Source (Node Kind Span ScopeStack Turn)

variable {first second : List Char}

/-! ### Trees that are alike -/

theorem flatMap_alikeAll {α : Type} {f : Node → List α}
    (hf : ∀ {n n' : Node}, alike first second n n' = true → f n = f n') {nodes nodes' : List Node}
    (h : alikeAll first second nodes nodes' = true) : nodes.flatMap f = nodes'.flatMap f := by
  induction nodes generalizing nodes' with
  | nil =>
      cases nodes' with
      | nil => rfl
      | cons n' rest' => simp [alikeAll] at h
  | cons n rest ih =>
      cases nodes' with
      | nil => simp [alikeAll] at h
      | cons n' rest' =>
          rw [alikeAll, Bool.and_eq_true] at h
          rw [List.flatMap_cons, List.flatMap_cons, hf h.1, ih h.2]

theorem boundNamesAll_eq_flatMap (nodes : List Node) :
    Node.boundNamesAll nodes = nodes.flatMap Node.boundNames := by
  induction nodes with
  | nil => rfl
  | cons n rest ih => rw [Node.boundNamesAll, ih, List.flatMap_cons]

theorem parameterNames_eq_flatMap (n : Node) : n.parameterNames =
    n.children.flatMap fun part => if part.kind == .parameter then part.boundNames else [] := by
  rw [Node.parameterNames, Node.parameters, boundNamesAll_eq_flatMap]
  induction n.children with
  | nil => rfl
  | cons part rest ih =>
      rw [List.filter_cons, List.flatMap_cons, ← ih]
      split
      · rw [List.flatMap_cons]
      · rfl

theorem sameNames_alike {n n' : Node} (h : alike first second n n' = true) : n.SameNames n' := by
  obtain ⟨hkind, -, hparts⟩ := alike_iff.mp h
  have hlexical : ∀ {m m' : Node}, alike first second m m' = true →
      m.lexicalNames = m'.lexicalNames :=
    fun hm => Node.lexicalNames_congr (declareAlike_of_alike hm)
  refine ⟨hkind, ?_, boundNames_first_alike h, flatMap_alikeAll hlexical hparts, ?_, ?_⟩
  · rw [parameterNames_eq_flatMap, parameterNames_eq_flatMap]
    refine flatMap_alikeAll ?_ hparts
    intro m m' hm
    rw [(alike_iff.mp hm).1, boundNames_alike hm]
  · refine flatMap_alikeAll ?_ hparts
    intro m m' hm
    obtain ⟨hm, -, hstatements⟩ := alike_iff.mp hm
    rw [hm, Node.hoistedNamesAll_congr (declareAlikeAll_of_alikeAll hstatements)]
  · refine flatMap_alikeAll ?_ hparts
    intro m m' hm
    obtain ⟨hm, -, hstatements⟩ := alike_iff.mp hm
    rw [hm, flatMap_alikeAll hlexical hstatements]

theorem exists_alike_of_mem {part : Node} {nodes nodes' : List Node}
    (h : alikeAll first second nodes nodes' = true) (hpart : part ∈ nodes) :
    ∃ part' ∈ nodes', alike first second part part' = true := by
  induction nodes generalizing nodes' with
  | nil => simp at hpart
  | cons n rest ih =>
      cases nodes' with
      | nil => simp [alikeAll] at h
      | cons n' rest' =>
          rw [alikeAll, Bool.and_eq_true] at h
          rcases List.mem_cons.mp hpart with rfl | hrest
          · exact ⟨n', List.mem_cons_self, h.1⟩
          · obtain ⟨part', hpart', halike⟩ := ih h.2 hrest
            exact ⟨part', List.mem_cons_of_mem n' hpart', halike⟩

/-- Each way into a tree is also one into a tree that is alike, and binds the same names there. -/
theorem exists_way_alike {n n' : Node} {way : List Node} (h : alike first second n n' = true)
    (hway : n.IsWay way) : ∃ way', n'.IsWay way' ∧
      alike first second (n.endOf way) (n'.endOf way') = true ∧ Node.SameScopes way way' := by
  induction way generalizing n n' with
  | nil => exact ⟨[], trivial, h, ⟨rfl, fun _ => rfl⟩⟩
  | cons part rest ih =>
      obtain ⟨part', hpart', halike⟩ := exists_alike_of_mem (alike_iff.mp h).2.2 hway.1
      obtain ⟨rest', hrest', hend, hscopes⟩ := ih halike hway.2
      exact ⟨part' :: rest', ⟨hpart', hrest'⟩, hend, .cons (sameNames_alike halike) hscopes⟩

/-! ### Texts that are wrapped -/

/-- A node that stands for no declaration. -/
structure DeclaresNothing (n : Node) : Prop where
  bound : n.boundNames = []
  first : Node.boundNamesAll (n.children.take 1) = []
  lexical : n.lexicalNames = []
  hoisted : n.hoistedNames = []
  role : n.kind.role = .other ∨ n.kind.role = .key

theorem DeclaresNothing.kind_beq {n : Node} (h : DeclaresNothing n) {kind : Kind}
    (hkind : kind = .parameter ∨ kind = .block ∨ kind = .switchCase) : (n.kind == kind) = false := by
  rw [beq_eq_false_iff_ne]
  intro heq
  have hrole := h.role
  rw [heq] at hrole
  rcases hkind with rfl | rfl | rfl <;> simp [Kind.role] at hrole

theorem declaresNothing_of_isText {n : Node} (h : n.kind.isText = true)
    (hleaf : n.children = []) : DeclaresNothing n := by
  cases n with
  | mk kind span children =>
      simp only [Node.kind_mk, Node.children_mk] at h hleaf
      subst hleaf
      cases kind <;> first
        | exact ⟨rfl, rfl, rfl, rfl, .inl rfl⟩
        | exact ⟨rfl, rfl, rfl, rfl, .inr rfl⟩
        | contradiction

theorem declaresNothing_node (site : LiteralSite) (key : String) :
    DeclaresNothing (site.node (callNode lookupName (some key))) := by
  cases site with
  | propertyKey => exact ⟨rfl, rfl, rfl, rfl, .inr rfl⟩
  | _ => exact ⟨rfl, rfl, rfl, rfl, .inl rfl⟩

theorem declaresNothing_of_mem_blankNodes {m : Node} {blanks : List Char} {span : Span}
    (h : m ∈ blankNodes blanks span) : DeclaresNothing m := by
  rw [blankNodes] at h
  split at h
  · simp at h
  · rw [List.mem_singleton.mp h]
    exact declaresNothing_of_isText rfl rfl

theorem declaresNothing_of_mem_nodes {l : Literal} {generator : KeyGenerator} {source : List Char}
    {span : Span} {m : Node} (h : m ∈ l.nodes generator source span) : DeclaresNothing m := by
  simp only [Literal.nodes] at h
  split at h
  · rcases List.mem_append.mp h with hleading | hbehind
    · exact declaresNothing_of_mem_blankNodes hleading
    · rcases List.mem_cons.mp hbehind with rfl | htrailing
      · exact declaresNothing_node _ _
      · exact declaresNothing_of_mem_blankNodes htrailing
  · rw [List.mem_singleton.mp h]
    exact declaresNothing_node _ _

theorem Literal.isText_of_ofNode? {source : List Char} {n : Node} {l : Literal}
    (h : ofNode? source n = some l) : n.kind.isText = true := by
  simp only [ofNode?] at h
  split at h
  · next hkind => rw [hkind]; rfl
  · next hkind => rw [hkind]; rfl
  · next hkind => rw [hkind]; rfl
  · next hkind => rw [hkind]; rfl
  · contradiction

section

variable (o : WrapOptions) (source : List Char)

/-- A node stays, or it is a literal and replaced, or its parts are wrapped. -/
theorem wrapTexts_cases (translated : Bool) (n : Node) :
    wrapTexts o source translated n = [n] ∨
      (∃ l, Literal.ofNode? source n = some l ∧ o.classifier.accepts l.text = true ∧
        wrapTexts o source translated n = l.nodes o.generator source n.span) ∨
      wrapTexts o source translated n = [.mk n.kind n.span
        (wrapTextsAll o source (Literal.isLookupCall n.kind n.children) n.children)] := by
  cases n with
  | mk kind span children =>
      rw [wrapTexts]
      split
      · next l hliteral =>
          split
          · next haccepts => exact .inr (.inl ⟨l, hliteral, haccepts, rfl⟩)
          · exact .inl rfl
      · split
        · exact .inl rfl
        · split
          · exact .inl rfl
          · split
            · exact .inl rfl
            · exact .inr (.inr rfl)

theorem declaresNothing_of_literal {n : Node} {l : Literal} (hn : n.InPlace)
    (h : Literal.ofNode? source n = some l) : DeclaresNothing n :=
  have htext := Literal.isText_of_ofNode? h
  declaresNothing_of_isText htext (hn.children_eq_nil htext)

theorem wrapTextsAll_eq_flatMap (translated : Bool) (nodes : List Node) :
    wrapTextsAll o source translated nodes = nodes.flatMap (wrapTexts o source translated) := by
  induction nodes with
  | nil => rfl
  | cons n rest ih => rw [wrapTextsAll, ih, List.flatMap_cons]

/-- Names that a node declares stay the same when the texts in it are wrapped, if that is so for a node
whose parts are wrapped. -/
theorem flatMap_wrapTexts {names : Node → List String} {n : Node} (translated : Bool)
    (hnone : ∀ m, DeclaresNothing m → names m = [])
    (hparts : ∀ inside, names (.mk n.kind n.span (wrapTextsAll o source inside n.children)) =
      names n) (hn : n.InPlace) :
    (wrapTexts o source translated n).flatMap names = names n := by
  rcases wrapTexts_cases o source translated n with hsame | ⟨l, hl, -, hnew⟩ | hinside
  · rw [hsame, List.flatMap_singleton]
  · rw [hnew, hnone n (declaresNothing_of_literal source hn hl)]
    exact List.flatMap_eq_nil_iff.mpr fun m hm => hnone m (declaresNothing_of_mem_nodes hm)
  · rw [hinside, List.flatMap_singleton, hparts]

theorem flatMap_wrapTextsAll {names : Node → List String} {nodes : List Node} (translated : Bool)
    (h : ∀ n ∈ nodes, (wrapTexts o source translated n).flatMap names = names n) :
    (wrapTextsAll o source translated nodes).flatMap names = nodes.flatMap names := by
  rw [wrapTextsAll_eq_flatMap, List.flatMap_assoc, List.flatMap_def, List.map_congr_left h,
    List.flatMap_def]

theorem boundNames_wrapTexts : ∀ (translated : Bool) (n : Node), n.InPlace →
    (wrapTexts o source translated n).flatMap Node.boundNames = n.boundNames
  | translated, .mk kind span children, hn => by
      refine flatMap_wrapTexts o source translated (fun m hm => hm.bound) ?_ hn
      intro inside
      have hparts : Node.boundNamesAll (wrapTextsAll o source inside children) =
          Node.boundNamesAll children := by
        rw [boundNamesAll_eq_flatMap, boundNamesAll_eq_flatMap]
        exact flatMap_wrapTextsAll o source inside fun part hpart =>
          boundNames_wrapTexts inside part (hn.child hpart)
      simp only [Node.kind_mk, Node.children_mk, Node.boundNames, hparts]

theorem boundNamesAll_wrapTextsAll (translated : Bool) {nodes : List Node}
    (h : ∀ n ∈ nodes, n.InPlace) :
    Node.boundNamesAll (wrapTextsAll o source translated nodes) = Node.boundNamesAll nodes := by
  rw [boundNamesAll_eq_flatMap, boundNamesAll_eq_flatMap]
  exact flatMap_wrapTextsAll o source translated fun n hn =>
    boundNames_wrapTexts o source translated n (h n hn)

theorem boundNames_first_wrapTextsAll (translated : Bool) {nodes : List Node}
    (h : ∀ n ∈ nodes, n.InPlace) :
    Node.boundNamesAll ((wrapTextsAll o source translated nodes).take 1) =
      Node.boundNamesAll (nodes.take 1) := by
  cases nodes with
  | nil => rfl
  | cons n rest =>
      have hn := h n List.mem_cons_self
      obtain ⟨m, more, hwrapped, -⟩ := exists_wrapTexts_eq_cons o source translated n
      have hsame : m.boundNames = n.boundNames := by
        rcases wrapTexts_cases o source translated n with hsame | ⟨l, hl, -, hnew⟩ | hinside
        · rw [hwrapped, List.cons.injEq] at hsame
          rw [hsame.1]
        · have hm : m ∈ l.nodes o.generator source n.span := by
            rw [← hnew, hwrapped]
            exact List.mem_cons_self
          rw [(declaresNothing_of_literal source hn hl).bound,
            (declaresNothing_of_mem_nodes hm).bound]
        · have hnames := boundNames_wrapTexts o source translated n hn
          rw [hwrapped, List.cons.injEq] at hinside
          rwa [hwrapped, hinside.2, List.flatMap_singleton] at hnames
      simp only [wrapTextsAll, hwrapped, List.cons_append, List.take_succ_cons, List.take_zero,
        Node.boundNamesAll, hsame]

theorem declaratorNames_wrapTextsAll (translated : Bool) {nodes : List Node}
    (h : ∀ n ∈ nodes, n.InPlace) :
    Node.declaratorNames (wrapTextsAll o source translated nodes) = Node.declaratorNames nodes := by
  refine flatMap_wrapTextsAll o source translated fun n hn => ?_
  refine flatMap_wrapTexts o source translated (fun m hm => hm.first) ?_ (h n hn)
  exact fun inside => boundNames_first_wrapTextsAll o source inside fun part => (h n hn).child

theorem lexicalNames_wrapTexts (translated : Bool) {n : Node} (hn : n.InPlace) :
    (wrapTexts o source translated n).flatMap Node.lexicalNames = n.lexicalNames := by
  refine flatMap_wrapTexts o source translated (fun m hm => hm.lexical) ?_ hn
  intro inside
  have hparts : ∀ part ∈ n.children, part.InPlace := fun part => hn.child
  simp only [Node.lexicalNames, Node.kind_mk, Node.children_mk,
    declaratorNames_wrapTextsAll o source inside hparts,
    boundNames_first_wrapTextsAll o source inside hparts]

theorem hoistedNames_wrapTexts : ∀ (translated : Bool) (n : Node), n.InPlace →
    (wrapTexts o source translated n).flatMap Node.hoistedNames = n.hoistedNames
  | translated, .mk kind span children, hn => by
      refine flatMap_wrapTexts o source translated (fun m hm => hm.hoisted) ?_ hn
      intro inside
      have hparts : Node.hoistedNamesAll (wrapTextsAll o source inside children) =
          Node.hoistedNamesAll children := by
        rw [Node.hoistedNamesAll_eq_flatMap, Node.hoistedNamesAll_eq_flatMap]
        exact flatMap_wrapTextsAll o source inside fun part hpart =>
          hoistedNames_wrapTexts inside part (hn.child hpart)
      have hdeclarators : Node.declaratorNames (wrapTextsAll o source inside children) =
          Node.declaratorNames children :=
        declaratorNames_wrapTextsAll o source inside fun part => hn.child
      simp only [Node.kind_mk, Node.children_mk, Node.hoistedNames, hparts, hdeclarators]

theorem hoistedNamesAll_wrapTextsAll (translated : Bool) {nodes : List Node}
    (h : ∀ n ∈ nodes, n.InPlace) :
    Node.hoistedNamesAll (wrapTextsAll o source translated nodes) = Node.hoistedNamesAll nodes := by
  rw [Node.hoistedNamesAll_eq_flatMap, Node.hoistedNamesAll_eq_flatMap]
  exact flatMap_wrapTextsAll o source translated fun n hn =>
    hoistedNames_wrapTexts o source translated n (h n hn)

theorem lexicalNames_wrapTextsAll (translated : Bool) {nodes : List Node}
    (h : ∀ n ∈ nodes, n.InPlace) :
    (wrapTextsAll o source translated nodes).flatMap Node.lexicalNames =
      nodes.flatMap Node.lexicalNames :=
  flatMap_wrapTextsAll o source translated fun _ hn => lexicalNames_wrapTexts o source _ (h _ hn)

/-- Names that only parts with a role declare stay the same. -/
theorem flatMap_role_wrapTextsAll {names : Node → List String} {kind : Kind} (translated : Bool)
    {nodes : List Node} (h : ∀ n ∈ nodes, n.InPlace)
    (hrole : ∀ m, DeclaresNothing m → (m.kind == kind) = false)
    (hnames : ∀ n ∈ nodes, ∀ inside,
      names (.mk n.kind n.span (wrapTextsAll o source inside n.children)) = names n) :
    (wrapTextsAll o source translated nodes).flatMap
        (fun part => if part.kind == kind then names part else []) =
      nodes.flatMap fun part => if part.kind == kind then names part else [] := by
  refine flatMap_wrapTextsAll o source translated fun n hn => ?_
  refine flatMap_wrapTexts o source translated ?_ ?_ (h n hn)
  · intro m hm
    rw [hrole m hm, if_neg Bool.false_ne_true]
  · intro inside
    simp only [Node.kind_mk, hnames n hn inside]

theorem sameNames_wrapTextsAll (inside : Bool) {n : Node} (hn : n.InPlace) :
    (Node.mk n.kind n.span (wrapTextsAll o source inside n.children)).SameNames n := by
  have hparts : ∀ part ∈ n.children, part.InPlace := fun part => hn.child
  refine ⟨rfl, ?_, boundNames_first_wrapTextsAll o source inside hparts,
    lexicalNames_wrapTextsAll o source inside hparts, ?_, ?_⟩
  · rw [parameterNames_eq_flatMap, parameterNames_eq_flatMap]
    refine flatMap_role_wrapTextsAll o source inside hparts ?_ ?_
    · exact fun m hm => hm.kind_beq (.inl rfl)
    · intro part hpart again
      cases part with
      | mk kind span children =>
          have hnames : Node.boundNamesAll (wrapTextsAll o source again children) =
              Node.boundNamesAll children :=
            boundNamesAll_wrapTextsAll o source again fun m => (hparts _ hpart).child
          simp only [Node.kind_mk, Node.children_mk, Node.boundNames, hnames]
  · refine flatMap_role_wrapTextsAll o source inside hparts ?_ ?_
    · exact fun m hm => hm.kind_beq (.inr (.inl rfl))
    · exact fun part hpart again =>
        hoistedNamesAll_wrapTextsAll o source again fun m => (hparts part hpart).child
  · refine flatMap_role_wrapTextsAll o source inside hparts ?_ ?_
    · exact fun m hm => hm.kind_beq (.inr (.inr rfl))
    · exact fun part hpart again =>
        lexicalNames_wrapTextsAll o source again fun m => (hparts part hpart).child

/-- The key of a literal. -/
def WrapOptions.keyOf (l : Literal) : String :=
  (o.generator.keyFor l.text OrderedMap.empty).1

/-- A literal and the nodes in its place bind nothing, and the call is reached through them. -/
theorem exists_way_to_node {n : Node} {l : Literal} (h : Literal.ofNode? source n = some l) :
    ∃ m ∈ l.nodes o.generator source n.span, ∃ way, m.IsWay way ∧
      m.endOf way = callNode lookupName (some (o.keyOf l)) ∧ Node.SameScopes [n] (m :: way) := by
  have hmem : l.site.node (callNode lookupName (some (o.keyOf l))) ∈
      l.nodes o.generator source n.span := by
    simp only [Literal.nodes]
    split
    · exact List.mem_append_right _ List.mem_cons_self
    · exact List.mem_singleton_self _
  refine ⟨_, hmem, ?_⟩
  cases n with
  | mk kind span children =>
      simp only [Literal.ofNode?, Node.kind_mk] at h
      split at h
      · obtain rfl := Option.some.inj h
        exact ⟨[], trivial, rfl, rfl, fun _ => rfl⟩
      · obtain rfl := Option.some.inj h
        exact ⟨[_], ⟨List.mem_singleton_self _, trivial⟩, rfl, rfl, fun _ => rfl⟩
      · split at h
        · obtain rfl := Option.some.inj h
          exact ⟨[_], ⟨List.mem_singleton_self _, trivial⟩, rfl, rfl, fun _ => rfl⟩
        · contradiction
      · have hsite : l.site = .elementText := by
          simp only [Literal.ofElementText?] at h
          split at h
          · contradiction
          · rw [← Option.some.inj h]
        rw [hsite]
        exact ⟨[_], ⟨List.mem_singleton_self _, trivial⟩, rfl, rfl, fun _ => rfl⟩
      · contradiction

/-- For each literal that is wrapped there is a way to it and one to the call in its place, and both bind
the same names. -/
theorem exists_way_to_call : ∀ (translated : Bool) (n : Node) (l : Literal), n.InPlace →
    l ∈ Literal.collect source translated n → o.classifier.accepts l.text = true →
      ∃ way, n.IsWay way ∧ Literal.ofNode? source (n.endOf way) = some l ∧
        ∃ m ∈ wrapTexts o source translated n, ∃ way', m.IsWay way' ∧
          m.endOf way' = callNode lookupName (some (o.keyOf l)) ∧
          Node.SameScopes (n :: way) (m :: way')
  | translated, .mk kind span children, l, hn, hl, haccepts => by
      rw [Literal.collect] at hl
      rw [wrapTexts]
      cases hliteral : Literal.ofNode? source (.mk kind span children) with
      | some literal =>
          simp only [hliteral] at hl ⊢
          obtain rfl := List.mem_singleton.mp hl
          obtain ⟨m, hm, way', hway', hend', hscopes⟩ := exists_way_to_node o source hliteral
          simp only [haccepts, if_true]
          exact ⟨[], trivial, hliteral, m, hm, way', hway', hend', hscopes⟩
      | none =>
          simp only [hliteral] at hl ⊢
          split at hl
          · simp at hl
          · next htype =>
              rw [if_neg htype]
              split at hl
              · simp at hl
              · next hstatement =>
                  rw [if_neg hstatement]
                  split at hl
                  · simp at hl
                  · next hargument =>
                      rw [if_neg hargument]
                      rw [Literal.collectAll_eq_flatMap] at hl
                      obtain ⟨part, hpart, hinside⟩ := List.mem_flatMap.mp hl
                      obtain ⟨way, hway, hend, m, hm, way', hway', hend', hscopes⟩ :=
                        exists_way_to_call _ part l (hn.child hpart) hinside haccepts
                      refine ⟨part :: way, ⟨hpart, hway⟩, hend, _, List.mem_singleton_self _,
                        m :: way', ⟨?_, hway'⟩, hend', ?_⟩
                      · rw [wrapTextsAll_eq_flatMap]
                        exact List.mem_flatMap.mpr ⟨part, hpart, hm⟩
                      · exact .cons (sameNames_wrapTextsAll o source _ hn).symm hscopes

end

end Localization
