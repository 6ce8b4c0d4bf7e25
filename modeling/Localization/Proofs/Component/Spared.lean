import Localization.Proofs.Component.Complete

/-!
Texts that a wrapping is to spare: those in a type, in the name of a member of an interface or in an import,
statements of their own, arguments of the lookup function, and keys without Hangul. All of them are spared,
except in names of members, in imports and in calls that are written in another way than `t(...)`. Main
statement: `wrapSource_spares_iff`.
-/

namespace Localization

open Source (Node Kind Span ScopeStack)

/-! ### Places that are to be spared -/

/-- An expression around another one that only says something about its type, and parentheses. -/
def Source.Kind.isTransparent : Kind → Bool
  | .paren | .nonNull | .asExpression | .satisfiesExpression | .typeAssertion | .constAssertion
  | .instantiation => true
  | _ => false

/-- An import, also by an equals sign. -/
def Source.Kind.isImport : Kind → Bool
  | .importDeclaration _ _ | .importEquals => true
  | _ => false

/-- Whether an expression is the lookup function, however it is written. -/
def isLookup : Node → Bool
  | .mk (.identifier name) _ _ => name == lookupName
  | .mk kind _ (inner :: _) => kind.isTransparent && isLookup inner
  | _ => false

/-- Whether a way from a call of the lookup function, also of an optional one, leads to a string that is one
of the arguments. -/
def isKeyText (n : Node) : List Node → Bool
  | argument :: way =>
    (n.kind == .call || n.kind == .chainCall) && n.children.head?.any isLookup &&
      isArgumentText argument way
  | [] => false

/-- Whether a way from an interface leads into the name of one of its members. -/
def isMemberName (n : Node) : List Node → Bool
  | member :: part :: _ =>
    n.kind == .interface && member.kind == .signature &&
      !(part.kind == .parameter || part.kind == .type)
  | _ => false

/-- Whether the text at the end of a way stands in an import or in the name of a member of an interface, or
is an argument of the lookup function. -/
def isOverlooked : List Node → Bool
  | [] => false
  | n :: way => n.kind.isImport || isMemberName n way || isKeyText n way || isOverlooked way

/-- Whether a node is a string without Hangul as the key of a property. -/
def isPlainKey (n : Node) : Bool :=
  match n.kind with
  | .keyString value => !value.any Text.containsHangul
  | _ => false

/-- Whether the text at the end of a way is to be spared. -/
def isSpared (n : Node) (way : List Node) : Bool :=
  isLeftAlone way || isOverlooked way || isPlainKey (n.endOf way)

/-- Whether a node shows a text that is accepted. -/
def showsText (classifier : Classifier) (n : Node) : Bool :=
  (shownText? n).any fun shown => classifier.accepts shown.2

theorem isPlainKey_eq_false {classifier : Classifier} {n : Node} (h : showsText classifier n = true) :
    isPlainKey n = false := by
  rw [showsText, shownText?] at h
  rw [isPlainKey]
  split
  · next value hkind =>
      rw [hkind] at h
      cases value with
      | none => contradiction
      | some text =>
          cases hangul : Text.containsHangul text with
          | true => simp [hangul]
          | false => simp [hangul] at h
  · rfl

/-! ### Ways to the bodies of components -/

/-- A function, also one that is written with an arrow. -/
def Source.Kind.ownsBody : Kind → Bool
  | .function _ _ | .arrow _ => true
  | _ => false

theorem Source.Kind.eq_of_ownsBody {kind : Kind} (h : kind.ownsBody = true) :
    (∃ isAsync isGenerator, kind = .function isAsync isGenerator) ∨
      ∃ isAsync, kind = .arrow isAsync := by
  unfold ownsBody at h
  split at h
  · exact .inl ⟨_, _, rfl⟩
  · exact .inr ⟨_, rfl⟩
  · contradiction

/-- A way to the body of a function that does not lead through a type. -/
inductive LeadsToBody (n body : Node) : List Node → Prop where
  | mk (outer : List Node) (f : Node) (isWay : n.IsWay (outer ++ [f, body]))
      (isFunction : f.kind.ownsBody = true) (noType : ∀ m ∈ outer, m.kind ≠ .type) :
      LeadsToBody n body (outer ++ [f, body])

theorem LeadsToBody.cons {n part body : Node} {above : List Node} (h : LeadsToBody part body above)
    (hpart : part ∈ n.children) (htype : part.kind ≠ .type) : LeadsToBody n body (part :: above) := by
  obtain ⟨outer, f, hway, hfunction, hnone⟩ := h
  refine .mk (part :: outer) f ⟨hpart, hway⟩ hfunction ?_
  intro m hm
  rcases List.mem_cons.mp hm with rfl | hmem
  · exact htype
  · exact hnone m hmem

theorem LeadsToBody.isWay {n body : Node} {above : List Node} (h : LeadsToBody n body above) :
    n.IsWay above := by
  cases h with
  | mk outer f isWay => exact isWay

theorem LeadsToBody.endOf {n body : Node} {above : List Node} (h : LeadsToBody n body above) :
    n.endOf above = body := by
  cases h with
  | mk outer f => simp

/-- Only parentheses stand between an expression and what is in them. -/
theorem leadsToBody_of_unparenthesized : ∀ {n value body : Node}, value ∈ n.children →
    value.unparenthesized.kind.ownsBody = true → body ∈ value.unparenthesized.children →
      ∃ above, LeadsToBody n body above := by
  intro n value body hvalue hfunction hbody
  fun_induction Node.unparenthesized value generalizing n with
  | case1 span inner ih =>
      obtain ⟨above, habove⟩ := ih (n := .mk .paren span [inner]) (List.mem_singleton_self inner)
        hfunction hbody
      exact ⟨_, habove.cons hvalue (by simp)⟩
  | case2 value => exact ⟨_, .mk [] value ⟨hvalue, hbody, trivial⟩ hfunction (by simp)⟩

theorem ownsBody_of_isFunction {kind : Kind} (h : kind.isFunction = true) : kind.ownsBody = true := by
  cases kind <;> first | rfl | contradiction

theorem exists_leadsToBody_of_ofNode? {n : Node} {c : Candidate} (hn : n.InPlace)
    (h : Candidate.ofNode? n = some c) : n.kind ≠ .type ∧ ∃ above, LeadsToBody n c.body above := by
  obtain ⟨f, hnamed, -, hbody, -⟩ := exists_function_of_ofNode? h
  have hpart := List.mem_of_find?_eq_some hbody
  cases hnamed with
  | declaration span binder _ _ hname =>
      have hfunction := hn.isFunction_last rfl rfl
      exact ⟨nofun, _, .mk [] f ⟨by simp, hpart, trivial⟩ (ownsBody_of_isFunction hfunction) nofun⟩
  | defaultExport span inner binder _ _ hname =>
      have hfunction := (hn.child (List.mem_singleton_self _)).isFunction_last rfl rfl
      refine ⟨nofun, _, .mk [_] f ⟨List.mem_singleton_self _, by simp, hpart, trivial⟩
        (ownsBody_of_isFunction hfunction) ?_⟩
      intro m hm
      rw [List.mem_singleton.mp hm]
      exact nofun
  | value span inner types _ value isAsync harrow =>
      exact ⟨nofun, leadsToBody_of_unparenthesized (by simp) (by rw [harrow]; rfl) hpart⟩

/-- The search for components comes to their bodies without passing a type. -/
theorem exists_leadsToBody_of_mem_findCandidates : ∀ (scopes : ScopeStack) (n : Node) (f : Found),
    n.InPlace → f ∈ findCandidates scopes n →
      n.kind ≠ .type ∧ ∃ above, LeadsToBody n f.candidate.body above
  | scopes, .mk kind span children, f, hn, hf => by
      rw [findCandidates] at hf
      split at hf
      · next c hc =>
          obtain rfl := List.mem_singleton.mp hf
          exact exists_leadsToBody_of_ofNode? hn hc
      · split at hf
        · contradiction
        · next htype =>
            rw [findCandidatesAll_eq_flatMap] at hf
            obtain ⟨part, hpart, hfound⟩ := List.mem_flatMap.mp hf
            obtain ⟨hkind, above, habove⟩ :=
              exists_leadsToBody_of_mem_findCandidates _ part f (hn.child hpart) hfound
            exact ⟨mt beq_iff_eq.mpr htype, _, habove.cons hpart hkind⟩

theorem exists_leadsToBody {module : Node} {f : Found} (hmodule : module.InPlace)
    (hf : f ∈ moduleCandidates module) : ∃ above, LeadsToBody module f.candidate.body above := by
  rw [moduleCandidates, findCandidatesAll_eq_flatMap] at hf
  obtain ⟨item, hitem, hfound⟩ := List.mem_flatMap.mp hf
  obtain ⟨hkind, above, habove⟩ :=
    exists_leadsToBody_of_mem_findCandidates _ item f (hmodule.child hitem) hfound
  exact ⟨_, habove.cons hitem hkind⟩

/-! ### What is around the body of a component -/

theorem isStatementText_of_length {n : Node} {way : List Node} (h : 1 < way.length) :
    isStatementText n way = false := by
  match way with
  | [_] => exact absurd h (Nat.lt_irrefl 1)
  | [] => rfl
  | _ :: _ :: _ => rfl

theorem isArgumentText_of_length {n : Node} {way : List Node} (h : 1 < way.length) :
    isArgumentText n way = false := by
  match way with
  | [_] => exact absurd h (Nat.lt_irrefl 1)
  | [] => cases hkind : n.kind <;> simp [isArgumentText, hkind]
  | _ :: _ :: _ => cases hkind : n.kind <;> simp [isArgumentText, hkind]

theorem isArgumentText_of_ownsBody {f : Node} (h : f.kind.ownsBody = true) (way : List Node) :
    isArgumentText f way = false := by
  rcases Source.Kind.eq_of_ownsBody h with ⟨isAsync, isGenerator, hkind⟩ | ⟨isAsync, hkind⟩
  · simp [isArgumentText, hkind]
  · simp [isArgumentText, hkind]

/-- A function leaves no text alone that is not left alone in its body. -/
theorem isLeftAlone_of_ownsBody {f : Node} (h : f.kind.ownsBody = true) (body : Node)
    (inside : List Node) : isLeftAlone (f :: body :: inside) = isLeftAlone (body :: inside) := by
  obtain ⟨htype, hstatement, hcall⟩ :
      f.kind ≠ .type ∧ f.kind ≠ .expressionStatement ∧ f.kind ≠ .call := by
    rcases Source.Kind.eq_of_ownsBody h with ⟨isAsync, isGenerator, hkind⟩ | ⟨isAsync, hkind⟩
    · simp [hkind]
    · simp [hkind]
  have hwhole : isStatementText f (body :: inside) = false := by
    cases inside with
    | nil => simp [isStatementText, hstatement]
    | cons part rest => rfl
  have hlookup : Literal.isLookupCall f.kind f.children = false := by
    unfold Literal.isLookupCall
    split
    · next hkind hchildren => exact absurd hkind hcall
    · rfl
  rw [isLeftAlone, beq_eq_false_iff_ne.mpr htype, hwhole, isLookupText, hlookup]
  rfl

/-- Whether a text of a component is left alone is decided in the body of the component. -/
theorem LeadsToBody.isLeftAlone_append {n body : Node} {above : List Node}
    (h : LeadsToBody n body above) (inside : List Node) :
    isLeftAlone (above ++ inside) = isLeftAlone (body :: inside) := by
  obtain ⟨outer, f, -, hfunction, hnone⟩ := h
  rw [List.append_assoc]
  induction outer with
  | nil => exact isLeftAlone_of_ownsBody hfunction body inside
  | cons m rest ih =>
      have htype : (m.kind == .type) = false :=
        beq_eq_false_iff_ne.mpr (hnone m List.mem_cons_self)
      have hstatement : isStatementText m (rest ++ f :: body :: inside) = false := by
        apply isStatementText_of_length
        simp only [List.length_append, List.length_cons]
        omega
      have hlookup : isLookupText m (rest ++ f :: body :: inside) = false := by
        cases rest with
        | nil => rw [List.nil_append, isLookupText, isArgumentText_of_ownsBody hfunction, Bool.and_false]
        | cons argument rest =>
            rw [List.cons_append, isLookupText, isArgumentText_of_length, Bool.and_false]
            simp only [List.length_append, List.length_cons]
            omega
      have hrest := ih fun m' hm' => hnone m' (List.mem_cons_of_mem m hm')
      simp only [List.cons_append, List.nil_append] at hrest ⊢
      rw [isLeftAlone, htype, hstatement, hlookup, hrest]
      rfl

/-! ### What is rewritten -/

/-- Edits replace the texts at the ends of some ways through a module, one text for each way, and insert
something besides. -/
structure Rewrites (o : WrapOptions) (source : List Char) (module : Node) (edits : List Edit)
    (ways : List (List Node)) : Prop where
  isWay : ∀ way ∈ ways, module.IsWay way
  replaced : ∃ replacements insertions,
    List.Forall₂ (fun way e => Replaces o source (module.endOf way) e) ways replacements ∧
      (∀ e ∈ insertions, e.isInsertion = true) ∧ edits.Perm (replacements ++ insertions)

theorem Rewrites.append {o : WrapOptions} {source : List Char} {module : Node} {edits more : List Edit}
    {ways : List (List Node)} (h : Rewrites o source module edits ways)
    (hmore : ∀ e ∈ more, e.isInsertion = true) : Rewrites o source module (edits ++ more) ways := by
  obtain ⟨replacements, insertions, hreplaced, hinsertions, hperm⟩ := h.replaced
  refine ⟨h.isWay, replacements, insertions ++ more, hreplaced, ?_, ?_⟩
  · intro e he
    rcases List.mem_append.mp he with hold | hnew
    · exact hinsertions e hold
    · exact hmore e hnew
  · rw [← List.append_assoc]
    exact hperm.append_right more

theorem exists_mem_of_forall₂ {α β : Type} {R : α → β → Prop} {left : List α} {right : List β}
    (h : List.Forall₂ R left right) {b : β} (hb : b ∈ right) : ∃ a ∈ left, R a b := by
  induction h with
  | nil => contradiction
  | cons hhere hrest ih =>
      rcases List.mem_cons.mp hb with rfl | hmem
      · exact ⟨_, List.mem_cons_self, hhere⟩
      · obtain ⟨a, ha, hrelated⟩ := ih hmem
        exact ⟨a, List.mem_cons_of_mem _ ha, hrelated⟩

/-- Every edit that is no insertion replaces one of the texts. -/
theorem Rewrites.exists_way {o : WrapOptions} {source : List Char} {module : Node} {edits : List Edit}
    {ways : List (List Node)} (h : Rewrites o source module edits ways) {e : Edit} (he : e ∈ edits)
    (hreplaces : e.isInsertion = false) : ∃ way ∈ ways, Replaces o source (module.endOf way) e := by
  obtain ⟨replacements, insertions, hreplaced, hinsertions, hperm⟩ := h.replaced
  rcases List.mem_append.mp (hperm.mem_iff.mp he) with hreplacement | hinsertion
  · exact exists_mem_of_forall₂ hreplaced hreplacement
  · rw [hinsertions e hinsertion] at hreplaces
    contradiction

theorem forall₂_flatMap {α β γ : Type} {R : β → γ → Prop} {f : α → List β} {g : α → List γ}
    {items : List α} (h : ∀ a ∈ items, List.Forall₂ R (f a) (g a)) :
    List.Forall₂ R (items.flatMap f) (items.flatMap g) := by
  induction items with
  | nil => exact .nil
  | cons a rest ih =>
      rw [List.flatMap_cons, List.flatMap_cons]
      exact List.rel_append (h a List.mem_cons_self) (ih fun b hb => h b (List.mem_cons_of_mem a hb))

theorem Found.isInsertion_of_mem_hookEdits {f : Found} {source : List Char} {space : Option String}
    {e : Edit} (h : e ∈ f.hookEdits source space) : e.isInsertion = true := by
  rcases f.hookEdits_cases source space with hnone | ⟨-, text, htext⟩ | ⟨opening, closing, htexts⟩
  · rw [hnone] at h
    contradiction
  · rw [htext, List.mem_singleton] at h
    rw [h]
    exact Edit.isInsertion_insert _ _
  · rw [htexts, List.mem_pair] at h
    rcases h with rfl | rfl
    · exact Edit.isInsertion_insert _ _
    · exact Edit.isInsertion_insert _ _

theorem exists_withImport_eq (o : WrapOptions) (source : List Char) (module : Node) (changes : Changes) :
    ∃ insertions, (withImport o source module changes).2 = changes.edits ++ insertions ∧
      ∀ e ∈ insertions, e.isInsertion = true := by
  rw [withImport]
  split
  · exact ⟨[], (List.append_nil _).symm, by simp⟩
  · exact ⟨_, rfl, fun e he => isInsertion_of_mem_importEdits he⟩

/-- The ways through a module to the texts of its components that are rewritten, if a way to the body of
each component is given. -/
def rewrittenWays (o : WrapOptions) (source : List Char) (module : Node) (above : Found → List Node) :
    List (List Node) :=
  (changedCandidates o source module).flatMap fun f =>
    (f.candidate.body.ways.filter (leadsToText o.classifier f.candidate.body)).map (above f ++ ·)

section

variable {o : WrapOptions} {path : String} {source : List Char} {module : Node}
  {above : Found → List Node}

theorem leadsToText_iff {body : Node} {outer : List Node} (h : LeadsToBody module body outer)
    {classifier : Classifier} {inside : List Node} : leadsToText classifier body inside = true ↔
      showsText classifier (module.endOf (outer ++ inside)) = true ∧
        isLeftAlone (outer ++ inside) = false := by
  rw [leadsToText, Bool.and_eq_true, Bool.not_eq_true', h.isLeftAlone_append, Node.endOf_append, h.endOf]
  rfl

theorem forall₂_literals_of_parseFile (hmodule : Source.parseFile path source = .ok module) {f : Found}
    (hf : f ∈ moduleCandidates module) (classifier : Classifier) :
    List.Forall₂ (fun way l => l.Shows source (f.candidate.body.endOf way))
      (f.candidate.body.ways.filter (leadsToText classifier f.candidate.body))
      (f.candidate.literals source classifier) := by
  have hbody := Found.body_mem_walk hf
  exact forall₂_literals ((Source.Parser.inPlace_parseFile hmodule).of_mem_walk hbody)
    ((Source.Parser.clear_parseFile hmodule).of_mem_walk hbody) classifier

/-- A way leads to a text that is rewritten exactly if it leads through the body of a component to a text
that is accepted and not left alone. -/
theorem mem_rewrittenWays_iff (hmodule : Source.parseFile path source = .ok module)
    (habove : ∀ f ∈ moduleCandidates module, LeadsToBody module f.candidate.body (above f))
    {way : List Node} : way ∈ rewrittenWays o source module above ↔
      (∃ f ∈ moduleCandidates module, ∃ inside, f.candidate.body.IsWay inside ∧
        way = above f ++ inside) ∧
      showsText o.classifier (module.endOf way) = true ∧ isLeftAlone way = false := by
  simp only [rewrittenWays, List.mem_flatMap, List.mem_map, List.mem_filter, Node.mem_ways_iff]
  constructor
  · rintro ⟨f, hf, inside, ⟨hway, hleads⟩, rfl⟩
    have hmem := (List.mem_filter.mp hf).1
    exact ⟨⟨f, hmem, inside, hway, rfl⟩, (leadsToText_iff (habove f hmem)).mp hleads⟩
  · rintro ⟨⟨f, hf, inside, hway, rfl⟩, htext⟩
    have hleads := (leadsToText_iff (habove f hf)).mpr htext
    refine ⟨f, List.mem_filter.mpr ⟨hf, ?_⟩, inside, ⟨hway, hleads⟩, rfl⟩
    -- The text is among the literals of the component, so that the component changes.
    have hlength := (forall₂_literals_of_parseFile hmodule hf o.classifier).length_eq
    have hpos := List.length_pos_of_mem (List.mem_filter.mpr ⟨Node.mem_ways_iff.mpr hway, hleads⟩)
    rw [hlength] at hpos
    rw [Found.changes, Bool.not_eq_true', List.isEmpty_eq_false_iff]
    exact List.ne_nil_of_length_pos hpos

theorem rewrites_wrapModule (hmodule : Source.parseFile path source = .ok module)
    (habove : ∀ f ∈ moduleCandidates module, LeadsToBody module f.candidate.body (above f)) :
    Rewrites o source module (wrapModule o source module).edits (rewrittenWays o source module above) := by
  constructor
  · intro way hway
    obtain ⟨⟨f, hf, inside, hinside, rfl⟩, -⟩ := (mem_rewrittenWays_iff hmodule habove).mp hway
    apply Node.isWay_append (habove f hf).isWay
    rw [(habove f hf).endOf]
    exact hinside
  · refine ⟨(changedCandidates o source module).flatMap fun f =>
        (f.candidate.literals source o.classifier).map fun l => replacementEdit l (o.keyOf l),
      (changedCandidates o source module).flatMap fun f => f.hookEdits source o.space, ?_, ?_, ?_⟩
    · refine forall₂_flatMap fun f hf => ?_
      have hmem := (List.mem_filter.mp hf).1
      rw [List.forall₂_map_left_iff, List.forall₂_map_right_iff]
      refine (forall₂_literals_of_parseFile hmodule hmem o.classifier).imp fun inside l hl => ?_
      rw [Node.endOf_append, (habove f hmem).endOf]
      exact ⟨l.site, l.text, hl.shown, hl.written, rfl⟩
    · intro e he
      obtain ⟨f, -, hhook⟩ := List.mem_flatMap.mp he
      exact Found.isInsertion_of_mem_hookEdits hhook
    · rw [edits_wrapModule]
      exact (List.flatMap_append_perm _ _ _).symm

end

theorem isOverlooked_of_isSpared {classifier : Classifier} {n : Node} {way : List Node}
    (hspared : isSpared n way = true) (halone : isLeftAlone way = false)
    (htext : showsText classifier (n.endOf way) = true) : isOverlooked way = true := by
  rw [isSpared, halone, isPlainKey_eq_false htext, Bool.false_or, Bool.or_false] at hspared
  exact hspared

/-- The output of a wrapping is made by edits that replace the texts at the ends of some ways through the
module. Where a text is to be spared, it is among them exactly if it is an accepted text of a component that
stands in an import or in the name of a member of an interface, or is an argument of the lookup function,
and that is not left alone: no text is rewritten in a type, as a statement, as a plain key or in a call
`t(...)`. -/
theorem wrapSource_spares_iff {o : WrapOptions} {path : String} {source : List Char} {w : WrappedSource}
    {module : Node} (h : wrapSource? o path source = .ok (some w))
    (hmodule : Source.parseFile path source = .ok module) :
    Edit.applyAll source (withImport o source module w.changes).2 = .ok w.output ∧
      ∃ ways, Rewrites o source module (withImport o source module w.changes).2 ways ∧
        (∀ way ∈ ways, isSpared module way = true →
          isOverlooked way = true ∧ isLeftAlone way = false) ∧
        ∀ f ∈ moduleCandidates module, ∃ above, LeadsToBody module f.candidate.body above ∧
          ∀ inside, f.candidate.body.IsWay inside → isSpared module (above ++ inside) = true →
            (above ++ inside ∈ ways ↔ isOverlooked (above ++ inside) = true ∧
              isLeftAlone (above ++ inside) = false ∧
              showsText o.classifier (module.endOf (above ++ inside)) = true) := by
  obtain ⟨module', hparse, -, hchanges, -, houtput⟩ := wrapSource?_eq_some h
  rw [hmodule, Except.ok.injEq] at hparse
  subst hparse
  refine ⟨houtput, ?_⟩
  have hplaced := Source.Parser.inPlace_parseFile hmodule
  choose! above habove using fun (f : Found) (hf : f ∈ moduleCandidates module) =>
    exists_leadsToBody hplaced hf
  have hways (way : List Node) : way ∈ rewrittenWays o source module above ↔ _ :=
    mem_rewrittenWays_iff hmodule habove
  refine ⟨rewrittenWays o source module above, ?_, ?_, ?_⟩
  · obtain ⟨insertions, hedits, hinsertions⟩ := exists_withImport_eq o source module w.changes
    rw [hedits, hchanges]
    exact (rewrites_wrapModule hmodule habove).append hinsertions
  · intro way hway hspared
    obtain ⟨-, htext, halone⟩ := (hways way).mp hway
    exact ⟨isOverlooked_of_isSpared hspared halone htext, halone⟩
  · intro f hf
    refine ⟨above f, habove f hf, ?_⟩
    intro inside hinside hspared
    rw [hways]
    constructor
    · rintro ⟨-, htext, halone⟩
      exact ⟨isOverlooked_of_isSpared hspared halone htext, halone, htext⟩
    · rintro ⟨-, halone, htext⟩
      exact ⟨⟨f, hf, inside, hinside, rfl⟩, htext, halone⟩

/-- A component with an interface, of which a member is named by a string, and with a text that is
translated already. -/
def namedMember : List Char :=
  ("function A() \x7b interface P \x7b \"이름\": \"값\" \x7d " ++
    "return <p title=\x7bt(\"제목\")\x7d>안녕</p>; \x7d\n").toList

theorem wrapSource_spares_namedMember : ∃ (w : WrappedSource) (module : Node) (ways : List (List Node)),
    wrapSource? (koreanOptions none) "a.tsx" namedMember = .ok (some w) ∧
      Source.parseFile "a.tsx" namedMember = .ok module ∧
      Rewrites (koreanOptions none) namedMember module
        (withImport (koreanOptions none) namedMember module w.changes).2 ways ∧
      (∃ way ∈ ways, shownText? (module.endOf way) = some (.expression, "이름")) ∧
      ∀ way ∈ ways, shownText? (module.endOf way) ≠ some (.expression, "제목") := by
  obtain ⟨w, hrun, -⟩ := exists_wrapped (koreanOptions none) "a.tsx" namedMember
    (p := fun w => w.changes.edits.length == 3) (by decide +kernel)
  obtain ⟨module, hmodule, hfacts⟩ := exists_module "a.tsx" namedMember
    (p := fun module =>
      ((moduleCandidates module).any fun f => f.candidate.body.ways.any fun inside =>
        shownText? (f.candidate.body.endOf inside) == some (.expression, "이름")) &&
      module.ways.all fun way =>
        (shownText? (module.endOf way) != some (.expression, "이름") ||
          isOverlooked way && !isLeftAlone way &&
            showsText (koreanOptions none).classifier (module.endOf way)) &&
        (shownText? (module.endOf way) != some (.expression, "제목") || isLeftAlone way))
    (by decide +kernel)
  simp only [Bool.and_eq_true, List.any_eq_true, List.all_eq_true, beq_iff_eq, Bool.or_eq_true,
    bne_iff_ne, Bool.not_eq_true'] at hfacts
  obtain ⟨⟨f, hf, inside, hinside, hname⟩, hplaces⟩ := hfacts
  obtain ⟨-, ways, hrewrites, hspared, hbodies⟩ := wrapSource_spares_iff hrun hmodule
  refine ⟨w, module, ways, hrun, hmodule, hrewrites, ?_, ?_⟩
  · obtain ⟨above, habove, hiff⟩ := hbodies f hf
    have hway := Node.mem_ways_iff.mp hinside
    rw [← habove.endOf, ← Node.endOf_append] at hname
    rw [← habove.endOf] at hway
    have hmem := Node.mem_ways_iff.mpr (Node.isWay_append habove.isWay hway)
    obtain ⟨⟨hoverlooked, halone⟩, htext⟩ := (hplaces _ hmem).1.resolve_left (not_not_intro hname)
    refine ⟨above ++ inside, (hiff inside ?_ ?_).mpr ⟨hoverlooked, halone, htext⟩, hname⟩
    · exact Node.mem_ways_iff.mp hinside
    · rw [isSpared, hoverlooked, Bool.or_true, Bool.true_or]
  · intro way hway htitle
    have hmem := Node.mem_ways_iff.mpr (hrewrites.isWay way hway)
    have halone := (hplaces way hmem).2.resolve_left (not_not_intro htitle)
    have hkept := (hspared way hway (by rw [isSpared, halone, Bool.true_or, Bool.true_or])).2
    exact Bool.false_ne_true (hkept.symm.trans halone)

/-- Texts that are to be spared are not always spared: the name of a member of an interface is rewritten. -/
theorem wrapSource_not_always_spares :
    ¬ ∀ (o : WrapOptions) (path : String) (source : List Char) (w : WrappedSource) (module : Node),
      wrapSource? o path source = .ok (some w) → Source.parseFile path source = .ok module →
        ∃ ways, Rewrites o source module (withImport o source module w.changes).2 ways ∧
          ∀ way ∈ ways, isSpared module way = false := by
  intro hall
  obtain ⟨w, hrun, hedits⟩ := exists_wrapped (koreanOptions none) "a.tsx" namedMember
    (p := fun w => w.changes.edits.any fun e => !e.isInsertion && e.text == "t(\"이름\")")
    (by decide +kernel)
  obtain ⟨module, hmodule, hplaces⟩ := exists_module "a.tsx" namedMember
    (p := fun module => module.ways.all fun way => (shownText? (module.endOf way)).all fun shown =>
      shown.1.wrap (lookupCall ((koreanOptions none).generator.keyFor shown.2 OrderedMap.empty).1) !=
        "t(\"이름\")" || isSpared module way)
    (by decide +kernel)
  obtain ⟨ways, hrewrites, hnone⟩ := hall _ _ _ w module hrun hmodule
  obtain ⟨e, he, hfacts⟩ := List.any_eq_true.mp hedits
  rw [Bool.and_eq_true, Bool.not_eq_true', beq_iff_eq] at hfacts
  obtain ⟨way, hway, site, text, hshown, -, hwritten⟩ :=
    hrewrites.exists_way (subset_withImport _ _ _ _ he) hfacts.1
  have hplace := List.all_eq_true.mp hplaces way (Node.mem_ways_iff.mpr (hrewrites.isWay way hway))
  rw [hshown, Option.all_some, ← hwritten, hfacts.2, hnone way hway, Bool.or_false] at hplace
  exact bne_iff_ne.mp hplace rfl

end Localization
