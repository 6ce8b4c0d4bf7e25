import Localization.Proofs.Source.Order.Reader

/-!
Patterns, property keys, parameters and types are in the order of the text; a signature has its type
parameters behind its parameters.
-/

/-! ## Patterns -/

namespace Localization.Source.Parser

variable {self : Goal → Parser Node} [g : Gap] [∀ goal, Reader true (self goal)]
  {base lo : Nat} {acc : List Node} {target : Node}

instance reader_annotation? : Reader true (annotation? self) :=
  ⟨fun _ => .skip fun _ => .ite (.read fun _ => .pure (.refl _)) (.pure (.refl _))⟩

instance reader_decorators : Reader true (decorators self) := by
  refine reader_many ⟨fun base => .skip fun _ => .ite (.here fun lo hlo => ?_) .none⟩
  exact .skip fun _ => .read fun e => .some (.node hlo rfl (.refl _))

instance reader_propertyKey (privates : Bool) : Reader true (propertyKey self privates) := by
  refine ⟨fun base => .token fun t hlo => ?_⟩
  split
  · exact (reader_leaf rfl).reads base
  · exact (reader_leaf rfl).reads base
  · exact (reader_leaf rfl).reads base
  · exact (reader_leaf rfl).reads base
  · exact .ite ((reader_leaf rfl).reads base) .fail
  · exact .skip fun _ => .read fun e => .skip fun _ => .node hlo rfl (.refl _)
  · exact .fail

theorem reads_withDefault (hlo : g.Stops lo) : Reads true base [target] (withDefault self lo target) :=
  .skip fun _ => .ite (.read fun _ => .node hlo rfl (.refl _)) (.pure (.refl _))

instance reader_patternElement : Reader true (patternElement self) :=
  ⟨fun _ => .here fun _ hlo => .read fun _ => reads_withDefault hlo⟩

instance reader_restElement : Reader true (restElement self) :=
  ⟨fun _ => .here fun _ hlo => .skip fun _ => .read fun _ => .read fun _ => .node hlo rfl (.refl _)⟩

instance reader_arrayPatternElement : Reader true (arrayPatternElement self) := by
  refine ⟨fun base => .skip fun _ => .ite .only (.skip fun _ => .ite ?_ ?_)⟩
  · exact .only
  · exact .only

instance reader_objectPatternProperty : Reader true (objectPatternProperty self) := by
  refine ⟨fun base => .here fun lo hlo => .skip fun _ => .ite .only ?_⟩
  refine .skip fun t => .token fun t' hstops => .read fun key => .skip fun _ => .ite ?_ ?_
  · exact .read fun value => .node hlo rfl (.refl _)
  · split
    · exact .fail
    · next name _ =>
      refine .leaf (.binding name) _ hstops rfl (.skip fun _ => .ite (.read fun value => ?_) ?_)
      · exact .node hlo rfl (.cons _ (.refl _))
      · exact .node hlo rfl (.cons _ (.refl _))

instance reader_bindingPattern : Reader true (bindingPattern self) := by
  refine ⟨fun base => .token fun t hlo => ?_⟩
  split
  · exact .skip fun _ => .read fun items => .node hlo rfl (.refl _)
  · exact .skip fun _ => .read fun items => .node hlo rfl (.refl _)
  · exact .skip fun name => .node hlo rfl (.refl _)

/-- Types behind a pattern become parts of it. -/
theorem gathered_annotated {lo hi stop : Nat} {marks types : List Node} (hkind : target.kind.keepsOrder = true)
    (h : Gathered true lo hi (marks ++ [target] ++ types)) :
    Gathered true lo hi (marks ++ [annotated target types stop]) := by
  cases types with
  | nil => rwa [List.append_nil] at h
  | cons type types =>
      obtain ⟨kind, span, children⟩ := target
      have hloose := Kind.isLoose_of_keepsOrder hkind
      have hcall := Kind.ne_call_of_isLoose hloose
      have htarget := h.tidy (.mk kind span children) (by simp)
      obtain ⟨hfront, htypes, hbefore⟩ := List.pairwise_append.mp (h.inOrder rfl)
      have hchild {part : Node} (hpart : part ∈ children) {s : Nat} (hs : s ∈ part.callStarts) :
          s ∈ (Node.mk kind span children).callStarts :=
        Node.mem_callStarts_mk.mpr (.inr ⟨part, hpart, hs⟩)
      -- A call in the annotated pattern is one of the pattern or of its types.
      have hstarts {s : Nat} (hs : s ∈ (annotated (.mk kind span children) (type :: types) stop).callStarts) :
          ∃ n ∈ [Node.mk kind span children] ++ type :: types, s ∈ n.callStarts := by
        rcases Node.mem_callStarts_mk.mp hs with ⟨hkind, -⟩ | ⟨part, hpart, hs⟩
        · exact absurd hkind hcall
        · rcases List.mem_append.mp hpart with hpart | hpart
          · exact ⟨_, List.mem_cons_self, hchild hpart hs⟩
          · exact ⟨part, List.mem_cons_of_mem _ hpart, hs⟩
      rw [List.append_assoc] at h
      obtain ⟨hmarks, -, hbehind⟩ := List.pairwise_append.mp (h.inOrder rfl)
      refine ⟨List.forall_mem_append.mpr ⟨fun n hn => h.tidy n (by simp [hn]), ?_⟩,
        List.forall_mem_append.mpr ⟨fun n hn => h.within n (by simp [hn]), ?_⟩, fun _ => ?_⟩
      · refine List.forall_mem_singleton.mpr (.mk htarget.lo ?_ ?_ ?_ (fun _ => ?_) ?_)
        · exact fun hblock => absurd hblock (Kind.ne_block_of_keepsOrder hkind)
        · exact fun htext => absurd htext (Kind.ne_templateText_of_keepsOrder hkind)
        · exact fun hcalled => absurd hcalled hcall
        · refine List.pairwise_append.mpr ⟨htarget.ordered hloose, htypes, fun part hpart n hn s hs => ?_⟩
          exact hbefore _ (by simp) n hn s (hchild hpart hs)
        · intro part hpart
          rcases List.mem_append.mp hpart with hpart | hpart
          · exact htarget.child hpart
          · exact h.tidy part (by simp_all)
      · refine List.forall_mem_singleton.mpr fun s hs => ?_
        obtain ⟨n, hn, hs⟩ := hstarts hs
        exact h.within n (List.mem_append_right marks hn) s hs
      · refine List.pairwise_append.mpr ⟨hmarks, List.pairwise_singleton _ _, fun m hm n hn s hs t ht => ?_⟩
        obtain rfl := List.mem_singleton.mp hn
        obtain ⟨n, hn, ht⟩ := hstarts ht
        exact hbehind m hm n hn s hs t ht

omit g in
theorem keepsOrder_of_isPattern {kind : Kind} (h : isPattern kind = true) : kind.keepsOrder = true := by
  revert h
  cases kind <;> simp [Kind.keepsOrder, Kind.isLoose]

omit [∀ goal, Reader true (self goal)] in
theorem keepsOrder_of_pattern [ReadsParts self] {c c' : Cursor} {target : Node} (hc : c.Behind g)
    (hrun : self .pattern c = .ok (target, c')) : target.kind.keepsOrder = true :=
  keepsOrder_of_isPattern ((keeps_iff.mp (ReadsParts.gives .pattern) _ _ _ hc hrun).2.2 rfl)

instance passes_skipParameterModifiers : Passes skipParameterModifiers :=
  passes_of_keeps fun _ => skipParameterModifiers_spec

instance reader_parameter [ReadsParts self] : Reader true (parameter self) := by
  refine ⟨fun base => .here fun lo hlo => .read fun marks => .skip fun _ => .skip fun _ => .ite ?_ ?_⟩
  · exact .read fun target => .tail (fun _ => reads_withDefault hlo) fun target => .node hlo rfl (.refl _)
  · refine .here fun patternLo hstops => .skip fun _ => ?_
    have hrest (target : Node) (hkind : target.kind.keepsOrder = true) :
        Reads true base (marks ++ [target]) (do
          let _ ← takeMark .question
          let types ← annotation? self
          let target := annotated target types (← get).previousEnd
          let target ← withDefault self patternLo target
          node .parameter lo (marks ++ [target])) := by
      refine .skip fun _ => .read fun types => .skip fun c => ?_
      refine .regroup (.tail (fun _ => reads_withDefault hstops) fun target => .node hlo rfl (.refl _)) ?_
      exact fun hi _ h => gathered_annotated hkind h
    refine .ite ?_ ?_
    · refine .readKnowing (reader_leaf rfl) ?_ fun target htarget => hrest target htarget
      intro c target c' hc hrun
      cases hrun
      rfl
    · exact .readKnowing inferInstance keepsOrder_of_pattern fun target htarget => hrest target htarget

instance reader_parameters [ReadsParts self] : Reader true (parameters self) :=
  ⟨fun _ => .skip fun _ => .only⟩

end Localization.Source.Parser

/-! ## Types -/

namespace Localization.Source.Parser

variable {self : Goal → Parser Node} [g : Gap] [ReadsParts self] [∀ goal, Reader true (self goal)]
  {base lo : Nat}

instance passes_entityName {first : Parser String} [Passes first] : Passes (entityName first) := by
  have hname (t : Token) : Passes (match t.kind with
      | .privateName _ => do
        bump
        return some ()
      | _ => do
        let _ ← anyName
        return some () : Parser (Option Unit)) := by
    split <;> exact passes_bind
  exact passes_bind

instance passes_isIndexSignature : Passes isIndexSignature := passes_of_keeps fun _ => isIndexSignature_spec
instance passes_mappedSign : Passes mappedSign := passes_of_keeps fun _ => mappedSign_spec
instance passes_mappedHead : Passes mappedHead := passes_of_keeps fun _ => mappedHead_spec

/-! ### Type parameters and arguments -/

instance reader_typeParameters?_one : Reader true (typeParameters?.one self) := by
  refine ⟨fun base => .here fun lo hlo => .skip fun _ => .skip fun _ => .skip fun _ => ?_⟩
  exact .optional fun bounds => .skip fun _ => .optional fun defaults => .node hlo rfl (.refl _)

instance reader_typeParameters? : Reader true (typeParameters? self) := by
  refine ⟨fun base => .skip fun _ => .ite (.here fun lo hlo => ?_) (.pure (.refl _))⟩
  exact .skip fun _ => .read fun items => .last (.node hlo rfl (.refl _)) fun _ => .pure (.refl _)

instance reader_typeArguments : Reader true (typeArguments self) :=
  ⟨fun _ => .here fun _ hlo => .skip fun _ => .read fun _ => .node hlo rfl (.refl _)⟩

instance reader_typeArguments? : Reader true (typeArguments? self) := by
  refine ⟨fun base => .skip fun _ => .skip fun _ => .ite ?_ (.pure (.refl _))⟩
  exact .read fun types => .pure (.refl _)

instance reader_returnType : Reader true (returnType self) := by
  refine ⟨fun base => .here fun lo hlo => .skip fun next => .skip fun _ => .ite ?_ ?_⟩
  · refine .skip fun _ => .skip fun _ => .skip fun _ => .skip fun _ => .ite ?_ (.node hlo rfl (.refl _))
    exact .skip fun _ => .read fun t => .node hlo rfl (.refl _)
  · refine .skip fun _ => .skip fun _ => .ite ?_ .only
    exact .skip fun _ => .skip fun _ => .read fun t => .node hlo rfl (.refl _)

instance reader_returnAnnotation? : Reader true (returnAnnotation? self) :=
  ⟨fun _ => .skip fun _ => .ite (.read fun _ => .pure (.refl _)) (.pure (.refl _))⟩

/-! ### Signatures -/

instance reader_indexSignature : Reader true (indexSignature self) :=
  ⟨fun _ => .skip fun _ => .read fun _ => .read fun _ => .pure (.refl _)⟩

instance reader_signatureParameters : Reader true (signatureParameters self) :=
  ⟨fun _ => .read fun _ => .ite .failBind (.pure (.refl _))⟩

instance reader_signatureRest : Reader false (signatureRest self) :=
  ⟨fun _ => .read fun _ => .read fun _ => .read fun _ => .pureLoose (by grind)⟩

instance reader_typeMember_key : Reader true (typeMember.key self) := by
  refine ⟨fun base => .read fun k => ?_⟩
  split
  · exact .regroup (.pure (.refl _)) fun hi _ h => .leaf (h.tidy k (by simp [parts])).lo nofun nofun
  · exact .pure (.refl _)

instance reader_typeMember_signature : Reader false (typeMember.signature self) := by
  refine ⟨fun base => .skip fun next => .skip fun _ => .skip fun _ => .ite .only ?_⟩
  refine .skip fun _ => .ite (.skip fun _ => .only) (.skip fun _ => .when (.skip fun _ => .ite .only ?_))
  refine .skip fun next => .skip fun _ => .skip fun _ => .ite ?_ ?_
  · exact .skip fun _ => .read fun k => .read fun rest => .pure (.refl _)
  · refine .read fun k => .skip fun _ => .skip fun _ => .skip fun _ => .ite ?_ ?_
    · exact .read fun rest => .pure (.refl _)
    · exact .read fun rest => .pure (.refl _)

instance reader_typeMember : Reader true (typeMember self) := by
  refine ⟨fun base => .ofLoose (.here fun lo hlo => .read fun items => .skip fun _ => .skip fun _ => ?_)⟩
  have hnode : Reads false base ([] ++ parts items) (node .signature lo items) :=
    .loose hlo rfl nofun (List.Subset.refl _)
  exact .ite hnode (.skip fun _ => .require hnode)

instance reader_typeMembers : Reader true (typeMembers self) := by
  refine ⟨fun base => .skip fun _ => .bind (.bracketed (reader_many ⟨fun base => ?_⟩)) fun members => ?_⟩
  · exact .skip fun _ => .ite .none (.some .only)
  · exact .skip fun _ => .pure (.refl _)

instance reader_mappedRest : Reader true (mappedRest self) := by
  refine ⟨fun base => .read fun keys => .skip fun _ => .optional fun renamed => .skip fun _ => .skip fun _ => ?_⟩
  exact .skip fun _ => .read fun types => .skip fun _ => .otherwise (.skip fun _ => .pure (.refl _))

instance reader_tupleElement : Reader true (tupleElement self) := by
  refine ⟨fun base => .here fun lo hlo => .skip fun _ => .skip fun _ => .read fun t => .skip fun _ => ?_⟩
  exact .node hlo rfl (.refl _)

instance reader_functionTypeHead : Reader true (functionTypeHead self) :=
  ⟨fun _ => .read fun _ => .read fun _ => .skip fun _ => .pure (.refl _)⟩

omit [ReadsParts self] in
theorem reads_importType (hlo : g.Stops lo) : Reads true base [] (primaryType.importType self lo) := by
  have hrest (source : Node) (options : List Node) : Reads true base ([source] ++ options) (do
      expectMark .rightParen
      if ← takeMark .dot then entityName anyName
      let args ← typeArguments? self
      typeNode lo (source :: options ++ args)) :=
    .skip fun _ => .skip fun _ => .when (.read fun args => .node hlo rfl (.refl _))
  refine .skip fun _ => .skip fun _ => .read fun source => .skip fun _ => .skip fun _ => .ite ?_ (hrest source [])
  exact .read fun e => .skip fun _ => hrest source [e]

instance reader_primaryType : Reader true (primaryType self) := by
  refine ⟨fun base => .token fun t hlo => ?_⟩
  dsimp only
  split
  · exact .skip fun _ => .node hlo rfl (.refl _)
  · exact .skip fun _ => .node hlo rfl (.refl _)
  · exact .skip fun _ => .node hlo rfl (.refl _)
  · refine .skip fun _ => .skip fun t => ?_
    split
    · exact .skip fun _ => .node hlo rfl (.refl _)
    · exact .skip fun _ => .node hlo rfl (.refl _)
    · exact .fail
  · refine .read fun r => .node hlo rfl (List.sublist_append_left _ _)
  · refine .skip fun head => ?_
    split
    · exact .read fun items => .node hlo rfl (.refl _)
    · exact .read fun members => .node hlo rfl (.refl _)
  · exact .skip fun _ => .read fun items => .node hlo rfl (.refl _)
  · exact .skip fun _ => .read fun inner => .skip fun _ => .node hlo rfl (.refl _)
  · refine .skip fun _ => .skip fun _ => .ite (reads_importType hlo) (.skip fun _ => ?_)
    exact .read fun args => .node hlo rfl (.refl _)
  · exact reads_importType hlo
  · refine .skip fun next => .ite (.skip fun _ => .node hlo rfl (.refl _)) ?_
    exact .skip fun _ => .read fun args => .node hlo rfl (.refl _)
  · exact .fail

instance reader_arrayType : Reader true (arrayType self) := by
  refine ⟨fun base => .here fun lo hlo => .read fun first => ?_⟩
  refine .extending (fun _ => True) (fun t _ => ?_) (fun _ _ _ _ _ _ => trivial) trivial
  refine .skip fun _ => .skip fun _ => .ite .none (.skip fun _ => .skip fun _ => .ite ?_ ?_)
  · exact .some (.node hlo rfl (.refl _))
  · exact .read fun index => .skip fun _ => .some (.node hlo rfl (.refl _))

instance reader_inferConstraint : Reader true (inferConstraint self) := by
  refine ⟨fun base => .skip fun _ => .bind (.attempt ⟨fun base => ?_⟩) fun bound => ?_⟩
  · exact .skip fun _ => .read fun t => .skip fun _ => .ite .failBind (.pure (.refl _))
  · cases bound <;> exact .pure (.refl _)

instance reader_operatorType (fuel : Nat) : Reader true (operatorType self fuel) := by
  induction fuel with
  | zero => exact ⟨fun _ => .fail⟩
  | succ fuel ih =>
      refine ⟨fun base => .here fun lo hlo => .skip fun _ => .skip fun _ => .skip fun _ => .ite ?_ ?_⟩
      · exact .skip fun _ => .read fun t => .node hlo rfl (.refl _)
      · refine .skip fun _ => .ite (.skip fun _ => .skip fun _ => ?_) .only
        exact .read fun bound => .node hlo rfl (.refl _)

instance reader_joinedTypes {mark : Mark} {one : Parser Node} [Reader true one] :
    Reader true (joinedTypes mark one) := by
  refine ⟨fun base => .here fun lo hlo => .skip fun _ => .read fun first => .bind ?_ fun rest => .ite ?_ ?_⟩
  · exact reader_many ⟨fun _ => .skip fun _ => .ite (.some .only) .none⟩
  · exact .pure (List.sublist_append_left _ _)
  · exact .node hlo rfl (.refl _)

instance reader_functionOr {other : Parser Node} [Reader true other] :
    Reader true (unionType.functionOr self other) := by
  refine ⟨fun base => .here fun lo hlo => .skip fun _ => .skip fun _ => .skip fun _ => .ite ?_ ?_⟩
  · refine .skip fun _ => .when (.read fun head => .read fun result => .node hlo rfl (.refl _))
  · refine .skip fun _ => .skip fun _ => .ite (.read fun head => ?_) .only
    cases head with
    | none => exact .only
    | some head => exact .read fun result => .node hlo rfl (.refl _)

instance reader_unionType : Reader true (unionType self) :=
  ⟨fun _ => .skip fun _ => .only⟩

instance reader_anyType : Reader true (anyType self) := by
  refine ⟨fun base => .here fun lo hlo => .read fun checked => .skip fun _ => .skip fun _ => .skip fun _ => ?_⟩
  refine .ite (.pure (.refl _)) (.skip fun _ => .read fun bound => .skip fun _ => .read fun yes => ?_)
  exact .skip fun _ => .read fun no => .node hlo rfl (.refl _)

end Localization.Source.Parser
