import Localization.Proofs.Component.Captured
import Localization.Proofs.Component.KeptKeys

/-!
Directives in a wrapped module: the strings that stand as statements at the beginning of the module or of
the body of a function. Texts and imports leave them alone, but the hook is put in front of those of a
component, which then are no directives any more. Main statement: `wrapSource_keeps_directives_iff`.
-/

namespace Localization

open Source (Node Kind Span ScopeStack)

/-! ### Directives and functions of a tree -/

namespace Source

/-- A function, an arrow function, an accessor or a constructor. -/
def Kind.hasBody : Kind → Bool
  | .function _ _ | .arrow _ | .getter | .setter | .constructor => true
  | _ => false

namespace Node

def isBlock (n : Node) : Bool :=
  n.kind == .block

/-- The string that a statement consists of. -/
def directive (n : Node) : Option String :=
  n.children.findSome? stringValue?

/-- The directives that some statements begin with. -/
def directives (statements : List Node) : List (Option String) :=
  (statements.takeWhile isStringStatement).map directive

/-- The directives of the first part with a property, if that part is a block. -/
def directivesIn (p : Node → Bool) (parts : List Node) : Option (List (Option String)) :=
  ((parts.find? p).filter isBlock).map fun body => directives body.children

/-- The directives of a function whose body is a block. The body of an accessor or a constructor stands
behind its key. -/
def prologue? (f : Node) : Option (List (Option String)) :=
  match f.kind with
  | .function _ _ | .arrow _ => directivesIn isBody f.children
  | .getter | .setter | .constructor => directivesIn isBlock f.children
  | _ => none

/-- The functions in a tree, in the order of a walk. -/
def functions (n : Node) : List Node :=
  n.walk.filter fun f => f.kind.hasBody

/-- The directives of the functions in a tree. -/
def prologues (n : Node) : List (Option (List (Option String))) :=
  n.functions.map prologue?

theorem functions_mk (kind : Kind) (span : Span) (children : List Node) :
    (mk kind span children).functions =
      (if kind.hasBody then [mk kind span children] else []) ++ children.flatMap functions := by
  rw [functions, walk, walkAll_eq_flatMap, List.filter_cons, List.filter_flatMap, kind_mk]
  cases kind.hasBody with
  | false => rfl
  | true => rfl

theorem prologues_mk (kind : Kind) (span : Span) (children : List Node) :
    (mk kind span children).prologues =
      (if kind.hasBody then [(mk kind span children).prologue?] else []) ++
        children.flatMap prologues := by
  rw [prologues, functions_mk, List.map_append, List.map_flatMap]
  cases kind.hasBody with
  | false => rfl
  | true => rfl

theorem prologues_of_hasBody {kind : Kind} (h : kind.hasBody = false) (span : Span)
    (children : List Node) : (mk kind span children).prologues = children.flatMap prologues := by
  rw [prologues_mk, h]
  rfl

theorem isStringStatement_congr {n n' : Node} (h : outline n = outline n') :
    n.isStringStatement = n'.isStringStatement := by
  obtain ⟨hkind, hkinds⟩ := Prod.mk.inj h
  rw [isStringStatement, isStringStatement, any_isString_congr hkinds, hkind]

theorem directive_congr {n n' : Node} (h : outline n = outline n') : n.directive = n'.directive := by
  have hvalue (n : Node) : n.directive = (n.children.map kind).findSome? fun kind =>
      (leaf kind default).stringValue? := by
    rw [directive, List.findSome?_map]
    rfl
  rw [hvalue, hvalue, (Prod.mk.inj h).2]

/-- Only the kinds of statements and of their parts matter for the directives. -/
theorem directives_congr {nodes nodes' : List Node} (h : nodes.map outline = nodes'.map outline) :
    directives nodes = directives nodes' := by
  induction nodes generalizing nodes' with
  | nil => rw [List.map_eq_nil_iff.mp h.symm]
  | cons n rest ih =>
      cases nodes' with
      | nil => simp at h
      | cons n' rest' =>
          simp only [List.map_cons, List.cons.injEq] at h
          rw [directives, directives, List.takeWhile_cons, List.takeWhile_cons,
            isStringStatement_congr h.1]
          split
          · rw [List.map_cons, List.map_cons, directive_congr h.1]
            exact congrArg _ (ih h.2)
          · rfl

theorem directives_cons {n : Node} {rest : List Node} (h : n.isStringStatement = true) :
    directives (n :: rest) = n.directive :: directives rest := by
  rw [directives, List.takeWhile_cons, h]
  rfl

theorem directives_cons_of_not {n : Node} (rest : List Node) (h : n.isStringStatement = false) :
    directives (n :: rest) = [] := by
  rw [directives, List.takeWhile_cons, h]
  rfl

theorem directivesIn_singleton (p : Node → Bool) (n : Node) :
    directivesIn p [n] = if p n && n.isBlock then some (directives n.children) else none := by
  rw [directivesIn, List.find?_singleton]
  cases p n with
  | false => rfl
  | true => cases hblock : n.isBlock <;> simp [Option.filter, hblock]

theorem directivesIn_append (p : Node → Bool) (first rest : List Node) :
    directivesIn p (first ++ rest) =
      if first.any p then directivesIn p first else directivesIn p rest := by
  have hany : first.any p = (first.find? p).isSome :=
    Bool.eq_iff_iff.mpr (List.any_eq_true.trans List.find?_isSome.symm)
  rw [directivesIn, List.find?_append, hany]
  cases hfirst : first.find? p with
  | some part => simp [directivesIn, hfirst]
  | none => simp [directivesIn]

theorem directivesIn_cons (p : Node → Bool) (part : Node) (rest : List Node) :
    directivesIn p (part :: rest) =
      if p part then directivesIn p [part] else directivesIn p rest := by
  rw [← List.singleton_append, directivesIn_append, List.any_cons, List.any_nil, Bool.or_false]

/-- Parts that take the place of one part keep the directives of the first part with a property. -/
def KeepsDirectives (p : Node → Bool) (part : Node) (parts : List Node) : Prop :=
  parts.any p = p part ∧ directivesIn p parts = directivesIn p [part]

theorem directivesIn_flatMap {p : Node → Bool} {new : Node → List Node} {parts : List Node}
    (h : ∀ part ∈ parts, KeepsDirectives p part (new part)) :
    directivesIn p (parts.flatMap new) = directivesIn p parts := by
  induction parts with
  | nil => rfl
  | cons part rest ih =>
      obtain ⟨hany, hsame⟩ := h part List.mem_cons_self
      have hrest := ih fun other hother => h other (List.mem_cons_of_mem part hother)
      rw [List.flatMap_cons, directivesIn_append, directivesIn_cons, hany, hsame, hrest]

/-- A body that takes the place of another one is the body of the function. -/
theorem directivesIn_replaceBody {part : Node} {parts body : List Node}
    (hfind : parts.find? isBody = some part) (hbody : body.any isBody = true) :
    directivesIn isBody (replaceBody body parts) = directivesIn isBody body := by
  induction parts with
  | nil => simp at hfind
  | cons first rest ih =>
      rw [replaceBody]
      split
      · rw [directivesIn_append, if_pos hbody]
      · next hfirst =>
          rw [List.find?_cons_of_neg hfirst] at hfind
          rw [directivesIn_cons, if_neg hfirst, ih hfind]

end Node

end Source

open Source.Node (KeepsDirectives directives directivesIn)

/-! ### Texts that are wrapped -/

/-- A node that is neither a statement nor a part of a function other than its body. -/
structure IsInline (n : Node) : Prop where
  isBody : isBody n = true
  isBlock : n.isBlock = false
  isStringStatement : n.isStringStatement = false
  prologues : n.prologues = []

theorem isInline_leaf {kind : Kind} (h : kind.isText = true) (span : Span) :
    IsInline (.leaf kind span) := by
  cases kind <;> first | exact ⟨rfl, rfl, rfl, rfl⟩ | simp at h

theorem isInline_node (site : LiteralSite) (key : String) :
    IsInline (site.node (callNode lookupName (some key))) := by
  cases site <;> exact ⟨rfl, rfl, rfl, rfl⟩

theorem isInline_of_mem_blankNodes {m : Node} {blanks : List Char} {span : Span}
    (h : m ∈ blankNodes blanks span) : IsInline m := by
  rw [blankNodes] at h
  split at h
  · simp at h
  · rw [List.mem_singleton.mp h]
    exact isInline_leaf rfl span

theorem isInline_of_mem_nodes {l : Literal} {generator : KeyGenerator} {source : List Char}
    {span : Span} {m : Node} (h : m ∈ l.nodes generator source span) : IsInline m := by
  simp only [Literal.nodes] at h
  split at h
  · rcases List.mem_append.mp h with hleading | hbehind
    · exact isInline_of_mem_blankNodes hleading
    · rcases List.mem_cons.mp hbehind with rfl | htrailing
      · exact isInline_node _ _
      · exact isInline_of_mem_blankNodes htrailing
  · rw [List.mem_singleton.mp h]
    exact isInline_node _ _

theorem isString_of_mem_nodes {l : Literal} {generator : KeyGenerator} {source : List Char}
    {span : Span} {m : Node} (h : m ∈ l.nodes generator source span) : m.isString = false := by
  have hblank : ∀ {blanks : List Char} {span : Span}, m ∈ blankNodes blanks span →
      m.isString = false := by
    intro blanks span h
    rw [blankNodes] at h
    split at h
    · simp at h
    · rw [List.mem_singleton.mp h]
      rfl
  have hcall : ∀ (site : LiteralSite) (key : String),
      (site.node (callNode lookupName (some key))).isString = false := by
    intro site key
    cases site <;> rfl
  simp only [Literal.nodes] at h
  split at h
  · rcases List.mem_append.mp h with hleading | hbehind
    · exact hblank hleading
    · rcases List.mem_cons.mp hbehind with rfl | htrailing
      · exact hcall _ _
      · exact hblank htrailing
  · rw [List.mem_singleton.mp h]
    exact hcall _ _

theorem isInline_of_isText {n : Node} (hn : n.InPlace) (h : n.kind.isText = true) : IsInline n := by
  cases n with
  | mk kind span children =>
      obtain rfl : children = [] := hn.children_eq_nil h
      exact isInline_leaf h span

/-- Nodes inside of statements have no directives. -/
theorem directivesIn_inline {p : Node → Bool} {nodes : List Node} (h : ∀ n ∈ nodes, IsInline n) :
    directivesIn p nodes = none := by
  rw [directivesIn]
  cases hfind : nodes.find? p with
  | none => rfl
  | some n => rw [Option.filter_some, (h n (List.mem_of_find?_eq_some hfind)).isBlock]; rfl

section

variable (o : WrapOptions) (source : List Char)

theorem isString_of_mem_wrapTexts {translated : Bool} {n m : Node}
    (hm : m ∈ wrapTexts o source translated n) (h : m.isString = true) : n.isString = true := by
  rcases wrapTexts_cases o source translated n with hsame | ⟨l, -, -, hnew⟩ | hinside
  · rw [hsame] at hm
    rwa [← List.mem_singleton.mp hm]
  · rw [hnew] at hm
    rw [isString_of_mem_nodes hm] at h
    contradiction
  · rw [hinside] at hm
    rw [List.mem_singleton.mp hm] at h
    exact h

theorem wrapTexts_of_isStringStatement (translated : Bool) {n : Node}
    (h : n.isStringStatement = true) : wrapTexts o source translated n = [n] := by
  cases n with
  | mk kind span children =>
      obtain ⟨hkind, hstring⟩ := Bool.and_eq_true_iff.mp h
      obtain rfl : kind = .expressionStatement := beq_iff_eq.mp hkind
      simp only [Node.children_mk] at hstring
      simp [wrapTexts, Literal.ofNode?, hstring]

theorem isStringStatement_of_mem_wrapTexts {translated : Bool} {n m : Node}
    (hm : m ∈ wrapTexts o source translated n) (h : m.isStringStatement = true) :
    n.isStringStatement = true := by
  rcases wrapTexts_cases o source translated n with hsame | ⟨l, -, -, hnew⟩ | hinside
  · rw [hsame] at hm
    rwa [← List.mem_singleton.mp hm]
  · rw [hnew] at hm
    rw [(isInline_of_mem_nodes hm).isStringStatement] at h
    contradiction
  · rw [hinside] at hm
    rw [List.mem_singleton.mp hm] at h
    obtain ⟨hkind, hany⟩ := Bool.and_eq_true_iff.mp h
    obtain ⟨part, hpart, hstring⟩ := List.any_eq_true.mp hany
    rw [Node.children_mk, wrapTextsAll_eq_flatMap] at hpart
    obtain ⟨old, hold, hbecomes⟩ := List.mem_flatMap.mp hpart
    refine Bool.and_eq_true_iff.mpr ⟨hkind, List.any_eq_true.mpr ⟨old, hold, ?_⟩⟩
    exact isString_of_mem_wrapTexts o source hbecomes hstring

/-- A statement that is a string stays, and no other one becomes one. -/
theorem directives_wrapTextsAll (translated : Bool) (statements : List Node) :
    directives (wrapTextsAll o source translated statements) = directives statements := by
  induction statements with
  | nil => rfl
  | cons n rest ih =>
      rw [wrapTextsAll]
      by_cases h : n.isStringStatement = true
      · rw [wrapTexts_of_isStringStatement o source translated h, List.singleton_append,
          Node.directives_cons h, Node.directives_cons h, ih]
      · obtain ⟨m, more, hwrapped, -⟩ := exists_wrapTexts_eq_cons o source translated n
        have hm : m ∈ wrapTexts o source translated n := hwrapped ▸ List.mem_cons_self
        have hnot : ¬ m.isStringStatement = true := fun hstatement =>
          h (isStringStatement_of_mem_wrapTexts o source hm hstatement)
        rw [hwrapped, List.cons_append, Node.directives_cons_of_not _ (by simpa using hnot),
          Node.directives_cons_of_not _ (by simpa using h)]

/-- A property that looks at the kind of a part and holds of all nodes inside of statements, or of none. -/
structure IsRole (p : Node → Bool) : Prop where
  kind : ∀ {n n' : Node}, n.kind = n'.kind → p n = p n'
  inline : ∀ {n n' : Node}, IsInline n → IsInline n' → p n = p n'

theorem isRole_isBody : IsRole isBody where
  kind h := by rw [isBody, isBody, h]
  inline h h' := by rw [h.isBody, h'.isBody]

theorem isRole_isBlock : IsRole Node.isBlock where
  kind h := by rw [Node.isBlock, Node.isBlock, h]
  inline h h' := by rw [h.isBlock, h'.isBlock]

theorem keepsDirectives_wrapTexts {p : Node → Bool} (hp : IsRole p) (translated : Bool) {n : Node}
    (hn : n.InPlace) : KeepsDirectives p n (wrapTexts o source translated n) := by
  rcases wrapTexts_cases o source translated n with hsame | ⟨l, hl, -, hnew⟩ | hinside
  · rw [hsame]
    exact ⟨by simp, rfl⟩
  · have hinline := isInline_of_isText hn (Literal.isText_of_ofNode? hl)
    have hall : ∀ m ∈ wrapTexts o source translated n, IsInline m := by
      rw [hnew]
      exact fun m => isInline_of_mem_nodes
    refine ⟨?_, ?_⟩
    · obtain ⟨m, more, hwrapped, -⟩ := exists_wrapTexts_eq_cons o source translated n
      have hsame : ∀ m ∈ wrapTexts o source translated n, p m = p n :=
        fun m hm => hp.inline (hall m hm) hinline
      rw [Bool.eq_iff_iff, List.any_eq_true]
      constructor
      · rintro ⟨other, hother, htrue⟩
        rwa [← hsame other hother]
      · intro htrue
        have hm : m ∈ wrapTexts o source translated n := hwrapped ▸ List.mem_cons_self
        exact ⟨m, hm, by rwa [hsame m hm]⟩
    · rw [directivesIn_inline hall, directivesIn_inline fun m hm => List.mem_singleton.mp hm ▸ hinline]
  · rw [hinside]
    have hkind : p (.mk n.kind n.span (wrapTextsAll o source
        (Literal.isLookupCall n.kind n.children) n.children)) = p n := hp.kind rfl
    refine ⟨by simp [hkind], ?_⟩
    rw [Node.directivesIn_singleton, Node.directivesIn_singleton, hkind, Node.children_mk,
      directives_wrapTextsAll]
    rfl

theorem prologue?_wrapTextsAll (translated : Bool) {n : Node} (hn : n.InPlace) :
    (Node.mk n.kind n.span (wrapTextsAll o source translated n.children)).prologue? = n.prologue? := by
  have hparts : ∀ {p : Node → Bool}, IsRole p →
      directivesIn p (wrapTextsAll o source translated n.children) = directivesIn p n.children := by
    intro p hp
    rw [wrapTextsAll_eq_flatMap]
    exact Node.directivesIn_flatMap fun part hpart =>
      keepsDirectives_wrapTexts o source hp translated (hn.child hpart)
  simp only [Node.prologue?, Node.kind_mk, Node.children_mk, hparts isRole_isBody,
    hparts isRole_isBlock]

/-- The functions in a component keep their directives when its texts are wrapped. -/
theorem prologues_wrapTexts : ∀ (translated : Bool) (n : Node), n.InPlace →
    (wrapTexts o source translated n).flatMap Node.prologues = n.prologues
  | translated, .mk kind span children, hn => by
      rcases wrapTexts_cases o source translated (.mk kind span children) with
        hsame | ⟨l, hl, -, hnew⟩ | hinside
      · rw [hsame, List.flatMap_singleton]
      · rw [(isInline_of_isText hn (Literal.isText_of_ofNode? hl)).prologues, hnew]
        exact List.flatMap_eq_nil_iff.mpr fun m hm => (isInline_of_mem_nodes hm).prologues
      · have hparts : ∀ inside, (wrapTextsAll o source inside children).flatMap Node.prologues =
            children.flatMap Node.prologues := by
          intro inside
          rw [wrapTextsAll_eq_flatMap, List.flatMap_assoc]
          exact List.flatMap_congr fun part hpart =>
            prologues_wrapTexts inside part (hn.child hpart)
        have hself := prologue?_wrapTextsAll o source
          (Literal.isLookupCall kind children) hn
        simp only [Node.kind_mk, Node.span_mk, Node.children_mk] at hinside hself
        rw [hinside, List.flatMap_singleton, Node.prologues_mk, Node.prologues_mk, hself, hparts]

/-! ### Components that receive the hook -/

theorem prologues_hookNode (space : Option String) : (hookNode space).prologues = [] := by
  cases space <;> rfl

theorem prologues_withHook (space : Option String) (body : List Node) :
    (withHook space body).prologues = body.flatMap Node.prologues := by
  unfold withHook
  split
  · rw [Node.prologues_mk, List.flatMap_cons, prologues_hookNode, List.flatMap_singleton,
      Node.prologues_mk]
    rfl
  · rw [newNode, Node.prologues_mk, List.flatMap_cons, prologues_hookNode, List.flatMap_singleton,
      newNode, Node.prologues_mk]
    rfl

/-- A body with the hook begins with it. -/
theorem directivesIn_withHook (space : Option String) (body : List Node) :
    directivesIn isBody [withHook space body] = some [] := by
  obtain ⟨span, rest, hhook⟩ := exists_withHook_eq space body
  rw [Node.directivesIn_singleton, isBody_withHook, hhook, Node.children_mk,
    Node.directives_cons_of_not rest rfl]
  rfl

/-- The function that a component is. -/
structure IsFunctionOf (f : Found) (g : Node) : Prop where
  kind : (∃ isAsync isGenerator, g.kind = .function isAsync isGenerator) ∨
    ∃ isAsync, g.kind = .arrow isAsync
  body : g.body? = some f.candidate.body

theorem IsFunctionOf.prologue? {f : Found} {g : Node} (h : IsFunctionOf f g) :
    g.prologue? =
      if f.candidate.hasBlock then some (directives f.candidate.body.children) else none := by
  have hin : g.prologue? = directivesIn isBody g.children := by
    rcases h.kind with ⟨isAsync, isGenerator, hkind⟩ | ⟨isAsync, hkind⟩ <;>
      simp only [Node.prologue?, hkind]
  rw [hin, directivesIn, ← body?_eq, h.body]
  cases hblock : f.candidate.hasBlock with
  | true => simp [Option.filter, Node.isBlock, show (f.candidate.body.kind == .block) = true from hblock]
  | false => simp [Option.filter, Node.isBlock, show (f.candidate.body.kind == .block) = false from hblock]

/-- What functions begin with when some components receive the hook: each of these components is one of
the functions and has no directives any more, and all other functions keep theirs. -/
def HidesDirectives (hooked : List Found) (before : List Node)
    (after : List (Option (List (Option String)))) : Prop :=
  ∃ marks : List (Node × Option Found), marks.map Prod.fst = before ∧
    marks.filterMap Prod.snd = hooked ∧ (∀ m ∈ marks, ∀ f ∈ m.2, IsFunctionOf f m.1) ∧
    after = marks.map fun m => if m.2.isSome then some [] else m.1.prologue?

namespace HidesDirectives

variable {hooked more : List Found} {before others : List Node}
  {after rest : List (Option (List (Option String)))}

theorem keep (functions : List Node) : HidesDirectives [] functions (functions.map Node.prologue?) := by
  refine ⟨functions.map fun f => (f, none), ?_, ?_, ?_, ?_⟩
  · simp [Function.comp_def]
  · simp
  · simp
  · simp

theorem hide {f : Found} {g : Node} (h : IsFunctionOf f g) : HidesDirectives [f] [g] [some []] := by
  refine ⟨[(g, some f)], rfl, rfl, ?_, rfl⟩
  simpa using h

theorem append (h : HidesDirectives hooked before after) (hmore : HidesDirectives more others rest) :
    HidesDirectives (hooked ++ more) (before ++ others) (after ++ rest) := by
  obtain ⟨marks, rfl, rfl, hof, rfl⟩ := h
  obtain ⟨marks', rfl, rfl, hof', rfl⟩ := hmore
  refine ⟨marks ++ marks', List.map_append, List.filterMap_append, ?_, List.map_append.symm⟩
  intro m hm
  rcases List.mem_append.mp hm with hm | hm
  · exact hof m hm
  · exact hof' m hm

theorem flatMap {nodes : List Node} {hooks : Node → List Found} {functions : Node → List Node}
    {new : Node → List (Option (List (Option String)))}
    (h : ∀ n ∈ nodes, HidesDirectives (hooks n) (functions n) (new n)) :
    HidesDirectives (nodes.flatMap hooks) (nodes.flatMap functions) (nodes.flatMap new) := by
  induction nodes with
  | nil => exact keep []
  | cons n rest ih =>
      exact (h n List.mem_cons_self).append (ih fun m hm => h m (List.mem_cons_of_mem n hm))

end HidesDirectives

theorem functions_unparenthesized (n : Node) : n.unparenthesized.functions = n.functions := by
  fun_induction Node.unparenthesized n with
  | case1 span inner ih =>
      rw [ih, Node.functions_mk, List.flatMap_singleton]
      rfl
  | case2 n hn => rfl

theorem prologues_insideParentheses (g : Node → Node) (n : Node) :
    (insideParentheses g n).prologues = (g n.unparenthesized).prologues := by
  fun_induction Node.unparenthesized n with
  | case1 span inner ih =>
      rw [insideParentheses, Node.prologues_mk, List.flatMap_singleton, ih]
      rfl
  | case2 n hn =>
      rw [insideParentheses]
      exact hn

theorem prologues_replaceBody {b : Node} {parts body : List Node}
    (hfind : parts.find? isBody = some b) (hbody : body.flatMap Node.prologues = b.prologues) :
    (replaceBody body parts).flatMap Node.prologues = parts.flatMap Node.prologues := by
  induction parts with
  | nil => simp at hfind
  | cons first rest ih =>
      rw [replaceBody]
      split
      · next hfirst =>
          rw [List.find?_cons_of_pos hfirst, Option.some.injEq] at hfind
          rw [List.flatMap_append, hbody, hfind, List.flatMap_cons]
      · next hfirst =>
          rw [List.find?_cons_of_neg hfirst] at hfind
          rw [List.flatMap_cons, ih hfind, List.flatMap_cons]

/-- The functions in the node of a candidate: first those in front of its own function, then this one and
the functions in its parts. Another body makes a difference for these alone. -/
theorem exists_functions_of_named {n g : Node} {name : String} (hn : n.InPlace)
    (hnamed : NamesFunction n name g) :
    ((∃ isAsync isGenerator, g.kind = .function isAsync isGenerator) ∨
        ∃ isAsync, g.kind = .arrow isAsync) ∧
      ∃ before, n.functions = before ++ g.functions ∧ ∀ body,
        (withCandidateBody body n).prologues =
          before.map Node.prologue? ++ (withBody body g).prologues := by
  have hfunction : ∀ {kind : Kind}, kind.isFunction = true →
      ∃ isAsync isGenerator, kind = .function isAsync isGenerator := by
    intro kind hkind
    cases kind <;> simp at hkind ⊢
  cases hnamed with
  | declaration span binder _ _ hname =>
      refine ⟨.inl (hfunction (hn.isFunction_last rfl rfl)), binder.functions, ?_, fun body => ?_⟩
      · simp [Node.functions_mk, Kind.hasBody]
      · change (Node.mk .functionDeclaration span [binder, withBody body g]).prologues =
          binder.prologues ++ _
        rw [Node.prologues_of_hasBody rfl, List.flatMap_cons, List.flatMap_singleton]
  | defaultExport span inner binder _ _ hname =>
      have hlast := (hn.child (List.mem_singleton_self _)).isFunction_last rfl rfl
      refine ⟨.inl (hfunction hlast), binder.functions, ?_, fun body => ?_⟩
      · simp [Node.functions_mk, Kind.hasBody]
      · change (Node.mk .exportDefaultDeclaration span
          [.mk .functionExpression inner [binder, withBody body g]]).prologues = binder.prologues ++ _
        rw [Node.prologues_of_hasBody rfl, List.flatMap_singleton, Node.prologues_of_hasBody rfl,
          List.flatMap_cons, List.flatMap_singleton]
  | value span inner types _ value isAsync harrow =>
      refine ⟨.inr ⟨isAsync, harrow⟩, (Node.mk (.binding name) inner types).functions, ?_,
        fun body => ?_⟩
      · rw [functions_unparenthesized, Node.functions_mk]
        simp [Kind.hasBody]
      · change (Node.mk .declarator span
          [.mk (.binding name) inner types, insideParentheses (withBody body) value]).prologues =
            (Node.mk (.binding name) inner types).prologues ++ _
        rw [Node.prologues_of_hasBody rfl, List.flatMap_cons, List.flatMap_singleton,
          prologues_insideParentheses]

/-- A function with another body begins with the directives of this one, and the functions in its parts
are as before if those in the body are. -/
theorem prologues_withBody {f : Found} {g : Node} {body : List Node} (hof : IsFunctionOf f g)
    (hbody : body.any isBody = true)
    (hsame : body.flatMap Node.prologues = f.candidate.body.prologues) :
    (withBody body g).prologues =
      directivesIn isBody body :: (g.children.flatMap Node.functions).map Node.prologue? := by
  obtain ⟨hkind, hfind⟩ := hof
  cases g with
  | mk kind span children =>
      have hhere : kind.hasBody = true ∧ (Node.mk kind span (replaceBody body children)).prologue? =
          directivesIn isBody (replaceBody body children) := by
        simp only [Node.kind_mk] at hkind
        rcases hkind with ⟨isAsync, isGenerator, rfl⟩ | ⟨isAsync, rfl⟩ <;> exact ⟨rfl, rfl⟩
      rw [body?_eq, Node.children_mk] at hfind
      rw [withBody, Node.kind_mk, Node.span_mk, Node.children_mk, Node.prologues_mk, hhere.1, hhere.2,
        Node.directivesIn_replaceBody hfind hbody, prologues_replaceBody hfind hsame, List.map_flatMap]
      rfl

theorem functions_of_isFunctionOf {f : Found} {g : Node} (hof : IsFunctionOf f g) :
    g.functions = g :: g.children.flatMap Node.functions := by
  obtain ⟨hkind, -⟩ := hof
  cases g with
  | mk kind span children =>
      simp only [Node.kind_mk] at hkind
      rcases hkind with ⟨isAsync, isGenerator, rfl⟩ | ⟨isAsync, rfl⟩ <;> exact Node.functions_mk _ _ _

/-- A component keeps its directives when its texts are wrapped, and loses them to the hook. -/
theorem hidesDirectives_withCandidateBody {n : Node} {f : Found} (hn : n.InPlace)
    (hnode : Candidate.ofNode? n = some f.candidate) :
    HidesDirectives (if f.needsHook then [f] else []) n.functions
      (withCandidateBody (f.wrappedBody o source) n).prologues := by
  obtain ⟨g, hnamed, -, hfind, -⟩ := exists_function_of_ofNode? hnode
  obtain ⟨hkind, before, hbefore, hafter⟩ := exists_functions_of_named hn hnamed
  have hof : IsFunctionOf f g := ⟨hkind, hfind⟩
  have hbody : f.candidate.body.InPlace := by
    obtain ⟨way, hway, hend, -⟩ := Candidate.exists_way_of_ofNode? hnode
    exact hend ▸ hn.endOf hway
  have hkeeps := keepsDirectives_wrapTexts o source isRole_isBody false hbody
  have hinside := prologues_wrapTexts o source false _ hbody
  rw [hbefore, functions_of_isFunctionOf hof, hafter, Found.wrappedBody]
  cases f.needsHook with
  | true =>
      simp only [if_true]
      rw [prologues_withBody hof (by simp [isBody_withHook])
        (by rw [List.flatMap_singleton, prologues_withHook, hinside]), directivesIn_withHook]
      exact (HidesDirectives.keep before).append
        ((HidesDirectives.hide hof).append (HidesDirectives.keep _))
  | false =>
      have hisBody : isBody f.candidate.body = true := List.find?_some hfind
      have hprologue : g.prologue? = directivesIn isBody [f.candidate.body] := by
        rw [hof.prologue?, Node.directivesIn_singleton, hisBody]
        rfl
      simp only [Bool.false_eq_true, if_false]
      rw [prologues_withBody hof (hkeeps.1.trans hisBody) hinside, hkeeps.2, ← hprologue,
        ← List.map_cons (f := Node.prologue?), ← List.map_append]
      exact HidesDirectives.keep _

theorem directives_wrapCandidatesAll (scopes : ScopeStack) (statements : List Node) :
    directives (wrapCandidatesAll o source scopes statements) = directives statements := by
  refine Node.directives_congr ?_
  rw [wrapCandidatesAll_eq_map, List.map_map]
  exact List.map_congr_left fun n _ => outline_wrapCandidates o source scopes n

theorem keepsDirectives_wrapCandidates {p : Node → Bool} (hp : IsRole p) (scopes : ScopeStack)
    (n : Node) : KeepsDirectives p n [wrapCandidates o source scopes n] := by
  have hkind := kind_wrapCandidates o source scopes n
  refine ⟨by simp [hp.kind hkind], ?_⟩
  have hblock : (wrapCandidates o source scopes n).isBlock = n.isBlock := by
    rw [Node.isBlock, Node.isBlock, hkind]
  rw [Node.directivesIn_singleton, Node.directivesIn_singleton, hp.kind hkind, hblock]
  split
  · next hn =>
      have hnkind : n.kind = .block := beq_iff_eq.mp (Bool.and_eq_true_iff.mp hn).2
      have hnone : Candidate.ofNode? n = none := by
        cases n
        simp only [Node.kind_mk] at hnkind
        subst hnkind
        rfl
      rw [wrapCandidates_of_none o source hnone (by simp [hnkind]), Node.children_mk,
        directives_wrapCandidatesAll]
  · rfl

theorem prologue?_wrapCandidatesAll (scopes : ScopeStack) (n : Node) :
    (Node.mk n.kind n.span (wrapCandidatesAll o source scopes n.children)).prologue? = n.prologue? := by
  have hparts : ∀ {p : Node → Bool}, IsRole p →
      directivesIn p (wrapCandidatesAll o source scopes n.children) = directivesIn p n.children := by
    intro p hp
    rw [wrapCandidatesAll_eq_map, List.map_eq_flatMap]
    exact Node.directivesIn_flatMap fun part _ => keepsDirectives_wrapCandidates o source hp scopes part
  simp only [Node.prologue?, Node.kind_mk, Node.children_mk, hparts isRole_isBody,
    hparts isRole_isBlock]

/-- Of the functions in a tree, those of the components that receive the hook lose their directives. -/
theorem hidesDirectives_wrapCandidates : ∀ (scopes : ScopeStack) (n : Node), n.InPlace →
    HidesDirectives ((findCandidates scopes n).filter fun f => f.changes o source && f.needsHook)
      n.functions (wrapCandidates o source scopes n).prologues
  | scopes, .mk kind span children, hn => by
      cases hc : Candidate.ofNode? (.mk kind span children) with
      | some c =>
          simp only [findCandidates, wrapCandidates, hc, List.filter_singleton]
          split
          · next hempty =>
              have hunchanged : (Found.mk c scopes).changes o source = false := by
                simp [Found.changes, hempty]
              rw [hunchanged, Bool.false_and, cond_false]
              exact HidesDirectives.keep _
          · next hempty =>
              have hchanged : (Found.mk c scopes).changes o source = true := by
                simpa [Found.changes] using hempty
              rw [hchanged, Bool.true_and, Bool.cond_eq_ite]
              exact hidesDirectives_withCandidateBody o source hn (f := ⟨c, scopes⟩) hc
      | none =>
          simp only [findCandidates, wrapCandidates, hc]
          split
          · exact HidesDirectives.keep _
          · have hself := prologue?_wrapCandidatesAll o source
              (scopesInside scopes (.mk kind span children)) (.mk kind span children)
            simp only [Node.kind_mk, Node.span_mk, Node.children_mk] at hself
            have hparts := HidesDirectives.flatMap fun part (hpart : part ∈ children) =>
              hidesDirectives_wrapCandidates (scopesInside scopes (.mk kind span children)) part
                (hn.child hpart)
            rw [findCandidatesAll_eq_flatMap, List.filter_flatMap, Node.functions_mk, Node.prologues_mk,
              hself, wrapCandidatesAll_eq_map, List.flatMap_map]
            cases kind.hasBody with
            | true => exact (HidesDirectives.keep [_]).append hparts
            | false => exact hparts

end

/-! ### The import of the hook -/

section

variable {space : String}

theorem prologues_insertBehindLast {p : Node → Bool} {new : Node} (h : new.prologues = [])
    (nodes : List Node) :
    (insertBehindLast p new nodes).flatMap Node.prologues = nodes.flatMap Node.prologues := by
  induction nodes with
  | nil => rfl
  | cons n rest ih =>
      rw [insertBehindLast]
      split
      · rw [List.flatMap_cons, List.flatMap_cons, h, List.flatMap_cons, List.nil_append]
      · rw [List.flatMap_cons, ih, List.flatMap_cons]

theorem prologues_withHookSpecifier {item : Node} (h : item.kind.hasBody = false) :
    (withHookSpecifier item).prologues = item.prologues := by
  rw [withHookSpecifier, Node.prologues_of_hasBody h, prologues_insertBehindLast rfl]
  cases item
  exact (Node.prologues_of_hasBody h _ _).symm

/-- Extending an import changes no function and no directive. -/
theorem extendFirst_keeps (items : List Node) :
    (extendFirst space items).flatMap Node.prologues = items.flatMap Node.prologues ∧
      directives (extendFirst space items) = directives items := by
  induction items with
  | nil => exact ⟨rfl, rfl⟩
  | cons item rest ih =>
      rw [extendFirst]
      split
      · next hitem =>
          have hkind : item.kind = .importDeclaration false (some space) :=
            beq_iff_eq.mp (Bool.and_eq_true_iff.mp hitem).1
          have hnot : item.isStringStatement = false ∧
              (withHookSpecifier item).isStringStatement = false := by
            simp [Node.isStringStatement, withHookSpecifier, hkind]
          refine ⟨?_, ?_⟩
          · rw [List.flatMap_cons, prologues_withHookSpecifier (by rw [hkind]; rfl), List.flatMap_cons]
          · rw [Node.directives_cons_of_not _ hnot.1, Node.directives_cons_of_not _ hnot.2]
      · refine ⟨by rw [List.flatMap_cons, ih.1, List.flatMap_cons], ?_⟩
        by_cases h : item.isStringStatement = true
        · rw [Node.directives_cons h, Node.directives_cons h, ih.2]
        · rw [Node.directives_cons_of_not _ (by simpa using h),
            Node.directives_cons_of_not _ (by simpa using h)]

theorem directives_append_cons (items : List Node) {n : Node} (rest : List Node)
    (h : n.isStringStatement = false) :
    directives (items.takeWhile Node.isStringStatement ++ n :: rest) = directives items := by
  have hall : ∀ item ∈ items.takeWhile Node.isStringStatement, item.isStringStatement = true :=
    fun item => List.mem_takeWhile_imp
  rw [directives, List.takeWhile_append_of_pos hall, List.takeWhile_cons, h, directives]
  simp

/-- The import of the hook comes behind the directives of a module. -/
theorem withHookImport_keeps (space : String) (items : List Node) :
    (withHookImport space items).flatMap Node.prologues = items.flatMap Node.prologues ∧
      directives (withHookImport space items) = directives items := by
  simp only [withHookImport]
  split
  · exact ⟨rfl, rfl⟩
  · split
    · exact extendFirst_keeps items
    · refine ⟨?_, directives_append_cons items _ rfl⟩
      rw [List.flatMap_append, List.flatMap_cons, hookImport, newNode, Node.prologues_of_hasBody rfl]
      conv_rhs => rw [← List.takeWhile_append_dropWhile (p := Node.isStringStatement) (l := items)]
      rw [List.flatMap_append]
      rfl

end

/-! ### The output -/

section

variable {first second : List Char}

theorem outlines_alikeAll {nodes nodes' : List Node} (h : alikeAll first second nodes nodes' = true) :
    nodes.map outline = nodes'.map outline := by
  induction nodes generalizing nodes' with
  | nil => rw [List.map_eq_nil_iff.mp (alikeAll_kinds h).symm]
  | cons n rest ih =>
      cases nodes' with
      | nil => simp [alikeAll] at h
      | cons n' rest' =>
          rw [alikeAll, Bool.and_eq_true] at h
          rw [List.map_cons, List.map_cons, outline_alike h.1, ih h.2]

theorem directives_alikeAll {nodes nodes' : List Node}
    (h : alikeAll first second nodes nodes' = true) : directives nodes = directives nodes' :=
  Node.directives_congr (outlines_alikeAll h)

theorem directivesIn_alikeAll {p : Node → Bool} (hp : IsRole p) {nodes nodes' : List Node}
    (h : alikeAll first second nodes nodes' = true) : directivesIn p nodes = directivesIn p nodes' := by
  induction nodes generalizing nodes' with
  | nil => rw [List.map_eq_nil_iff.mp (alikeAll_kinds h).symm]
  | cons n rest ih =>
      cases nodes' with
      | nil => simp [alikeAll] at h
      | cons n' rest' =>
          rw [alikeAll, Bool.and_eq_true] at h
          obtain ⟨hkind, -, hchildren⟩ := alike_iff.mp h.1
          rw [Node.directivesIn_cons, Node.directivesIn_cons p n', ih h.2,
            Node.directivesIn_singleton, Node.directivesIn_singleton, hp.kind hkind,
            Node.isBlock, hkind, directives_alikeAll hchildren]
          rfl

theorem prologue?_alike {n n' : Node} (h : alike first second n n' = true) :
    n.prologue? = n'.prologue? := by
  obtain ⟨hkind, -, hchildren⟩ := alike_iff.mp h
  simp only [Node.prologue?, hkind, directivesIn_alikeAll isRole_isBody hchildren,
    directivesIn_alikeAll isRole_isBlock hchildren]

mutual

theorem prologues_alike : ∀ {n n' : Node}, alike first second n n' = true →
    n.prologues = n'.prologues
  | .mk kind span children, .mk kind' span' children', h => by
      obtain ⟨hkind, -, hchildren⟩ := alike_iff.mp h
      simp only [Node.kind_mk, Node.children_mk] at hkind hchildren
      subst hkind
      rw [Node.prologues_mk, Node.prologues_mk, prologue?_alike h, prologues_alikeAll hchildren]

theorem prologues_alikeAll : ∀ {nodes nodes' : List Node},
    alikeAll first second nodes nodes' = true →
    nodes.flatMap Node.prologues = nodes'.flatMap Node.prologues
  | [], [], _ => rfl
  | n :: rest, n' :: rest', h => by
      simp only [alikeAll, Bool.and_eq_true] at h
      rw [List.flatMap_cons, List.flatMap_cons, prologues_alike h.1, prologues_alikeAll h.2]

end

end

/-- The directives that are left in a wrapped module. -/
theorem hidesDirectives_wrappedModule (o : WrapOptions) (source : List Char) {module : Node}
    (hmodule : module.InPlace) (hkind : module.kind = .module) :
    directives (wrappedModule o source module).children = directives module.children ∧
      HidesDirectives (hookedCandidates o source module) module.functions
        (wrappedModule o source module).prologues := by
  cases module with
  | mk kind span children =>
      obtain rfl : kind = .module := hkind
      generalize hscopes : ScopeStack.empty.declare (Node.moduleNames children) = scopes
      have hdirectives := directives_wrapCandidatesAll o source scopes children
      have hitems : HidesDirectives
          ((findCandidatesAll scopes children).filter fun f => f.changes o source && f.needsHook)
          (children.flatMap Node.functions)
          ((wrapCandidatesAll o source scopes children).flatMap Node.prologues) := by
        rw [findCandidatesAll_eq_flatMap, List.filter_flatMap, wrapCandidatesAll_eq_map,
          List.flatMap_map]
        exact HidesDirectives.flatMap fun item hitem =>
          hidesDirectives_wrapCandidates o source scopes item (hmodule.child hitem)
      simp only [wrappedModule, hookedCandidates, moduleCandidates, Node.kind_mk, Node.span_mk,
        Node.children_mk, hscopes]
      rw [Node.functions_mk, Node.prologues_of_hasBody rfl]
      split
      · exact ⟨hdirectives, hitems⟩
      · obtain ⟨hfunctions, hsame⟩ :=
          withHookImport_keeps o.importSource (wrapCandidatesAll o source scopes children)
        rw [hfunctions]
        exact ⟨hsame.trans hdirectives, hitems⟩

/-- A function that has a block with directives still has them. -/
def KeepsPrologue (before after : Option (List (Option String))) : Prop :=
  before.isSome = true → after = before

theorem HidesDirectives.keeps_iff {hooked : List Found} {before : List Node}
    {after : List (Option (List (Option String)))} (h : HidesDirectives hooked before after) :
    List.Forall₂ KeepsPrologue (before.map Node.prologue?) after ↔
      ∀ f ∈ hooked, f.candidate.hasBlock = true → directives f.candidate.body.children = [] := by
  obtain ⟨marks, rfl, rfl, hof, rfl⟩ := h
  rw [List.map_map, List.forall₂_map_left_iff, List.forall₂_map_right_iff, List.forall₂_same]
  constructor
  · intro hkeeps f hf hblock
    obtain ⟨m, hm, hmark⟩ := List.mem_filterMap.mp hf
    have hprologue := (hof m hm f hmark).prologue?
    have hkept := hkeeps m hm
    rw [Function.comp_apply, hprologue, hmark, hblock] at hkept
    have hsame : some [] = some (directives f.candidate.body.children) := hkept rfl
    exact (Option.some.inj hsame).symm
  · rintro hnone ⟨g, mark⟩ hm
    cases mark with
    | none => exact fun _ => rfl
    | some f =>
        have hprologue := (hof _ hm f rfl).prologue?
        have hf := hnone f (List.mem_filterMap.mpr ⟨_, hm, rfl⟩)
        simp only [Function.comp_apply, hprologue]
        cases hblock : f.candidate.hasBlock with
        | true => simp [KeepsPrologue, hf hblock]
        | false => simp [KeepsPrologue]

/-- A component that begins with a directive. -/
def serverComponent : List Char :=
  "function A() \x7b \"use server\"; return <p>안녕</p>; \x7d\n".toList

end Localization
