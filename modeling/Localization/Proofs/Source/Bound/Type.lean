import Localization.Proofs.Source.Bound.Reader

/-!
Patterns and types are formed. A pattern binds names, and what stands beside its parts (keys, default values,
types, decorators) is no pattern.
-/

-- The instance of a long reader is built from those of all its steps.
set_option synthInstance.maxSize 100000

namespace Localization.Source

/-- What is read for every goal but `pattern` is no pattern. -/
@[reducible]
def Goal.isPlain : Goal → Bool
  | .pattern => false
  | _ => true

namespace Parser

/-- A reader of all constructs whose trees are formed: patterns where patterns are asked for, and none
elsewhere. -/
class FillsSlots (self : Goal → Parser Node) : Prop where
  pattern : Fills .target (self .pattern)
  other : ∀ goal : Goal, goal.isPlain = true → Fills .plain (self goal)

variable {s : Slot} {self : Goal → Parser Node} {lo : Nat}

instance fills_goal_pattern [FillsSlots self] : Fills .target (self .pattern) :=
  FillsSlots.pattern

instance fills_goal [FillsSlots self] {goal : Goal} [hgoal : Holds goal.isPlain] : Fills .plain (self goal) :=
  FillsSlots.other goal hgoal.holds

/-! ## Patterns as nodes -/

section

variable {span : Span} {key target value : Node} {items types marks : List Node}

theorem suits_target_of_binds {kind : Kind} (hkind : isPattern kind = true) {names : List String}
    (h : (Node.mk kind span items).Binds names) (hitems : Suits .any items) :
    Suits .target (Node.mk kind span items) := by
  refine suits_node_iff.mpr ⟨formed_of_binds h ?_ hitems, hkind, names, h⟩
  revert hkind
  cases kind <;> simp [Kind.declaresNames]

theorem suits_pattern_of_binds {kind : Kind} (hkind : kind.declaresNames = false) {names : List String}
    (h : (Node.mk kind span items).Binds names) (hitems : Suits .any items) :
    Suits .pattern (Node.mk kind span items) :=
  suits_node_iff.mpr ⟨formed_of_binds h hkind hitems, names, h⟩

instance fills_binding {name : String} : Fills .target (node (.binding name) lo []) :=
  fills_node_of fun _ => suits_target_of_binds rfl .name suits_nil

instance fills_arrayPattern [h : Suits .pattern items] : Fills .target (node .arrayPattern lo items) := by
  obtain ⟨names, hnames⟩ := exists_bindsAll_of_suits h
  have hbinds (span : Span) : (Node.mk .arrayPattern span items).Binds names := by
    rw [← List.append_nil items]
    exact .array hnames nofun
  exact fills_node_of fun span => suits_target_of_binds rfl (hbinds span) inferInstance

instance fills_objectPattern [h : Suits .pattern items] : Fills .target (node .objectPattern lo items) := by
  obtain ⟨names, hnames⟩ := exists_bindsAll_of_suits h
  have hbinds (span : Span) : (Node.mk .objectPattern span items).Binds names := by
    rw [← List.append_nil items]
    exact .object hnames nofun
  exact fills_node_of fun span => suits_target_of_binds rfl (hbinds span) inferInstance

instance fills_keyPattern [hkey : Suits .plain key] [htarget : Suits .pattern target] :
    Fills .pattern (node .keyPattern lo [key, target]) := by
  obtain ⟨names, hnames⟩ := (suits_node_iff.mp htarget).2
  exact fills_node_of fun span =>
    suits_pattern_of_binds rfl (.renamed (suits_node_iff.mp hkey).2 hnames) inferInstance

instance fills_shorthandPattern {name : String} {nameSpan : Span} [h : Suits .plain items] :
    Fills .pattern (node .shorthandPattern lo (Node.leaf (.binding name) nameSpan :: items)) :=
  fills_node_of fun _ => suits_pattern_of_binds rfl (.shorthand (silent_of_suits h)) inferInstance

instance fills_defaultPattern [htarget : Suits .pattern target] [hvalue : Suits .plain value] :
    Fills .pattern (node .defaultPattern lo [target, value]) := by
  obtain ⟨names, hnames⟩ := (suits_node_iff.mp htarget).2
  exact fills_node_of fun span =>
    suits_pattern_of_binds rfl (.withDefault hnames (suits_node_iff.mp hvalue).2) inferInstance

instance fills_restPattern [htarget : Suits .pattern target] [htypes : Suits .plain types] :
    Fills .pattern (node .restPattern lo (target :: types)) := by
  obtain ⟨names, hnames⟩ := (suits_node_iff.mp htarget).2
  exact fills_node_of fun span =>
    suits_pattern_of_binds rfl (.rest hnames (silent_of_suits htypes)) inferInstance

instance fills_parameterNode [hmarks : Suits .plain marks] [htarget : Suits .pattern target] :
    Fills .pattern (node .parameter lo (marks ++ [target])) := by
  obtain ⟨names, hnames⟩ := (suits_node_iff.mp htarget).2
  exact fills_node_of fun span =>
    suits_pattern_of_binds rfl (.parameter (silent_of_suits hmarks) hnames) inferInstance

/-- A type annotation binds no names. -/
instance suits_annotated {hi : Nat} [htarget : Suits .target target] [htypes : Suits .plain types] :
    Suits .target (annotated target types hi) := by
  unfold annotated
  split
  · exact htarget
  obtain ⟨hformed, hkind, names, hnames⟩ := suits_node_iff.mp htarget
  have hparts : Suits .any (target.children ++ types) :=
    ⟨List.forall_mem_append.mpr ⟨fun n hn => ⟨hformed.child hn, trivial⟩,
      (inferInstance : Suits .any types).takes⟩⟩
  have hsilent := silent_of_suits htypes
  cases hnames with
  | name => exact suits_target_of_binds rfl .name hparts
  | array h hmore =>
      rw [Node.children_mk, List.append_assoc] at hparts ⊢
      exact suits_target_of_binds rfl (.array h (List.forall_mem_append.mpr ⟨hmore, hsilent⟩)) hparts
  | object h hmore =>
      rw [Node.children_mk, List.append_assoc] at hparts ⊢
      exact suits_target_of_binds rfl (.object h (List.forall_mem_append.mpr ⟨hmore, hsilent⟩)) hparts
  | _ => contradiction

end

/-! ## Patterns that are read -/

variable [FillsSlots self]

instance fills_annotation? : Fills .plain (annotation? self) := by
  unfold annotation?
  infer_instance

instance fills_decorators : Fills .plain (decorators self) := by
  unfold decorators
  infer_instance

instance fills_propertyKey {privates : Bool} : Fills .plain (propertyKey self privates) := by
  refine .skip fun t => ?_
  split <;> infer_instance

instance fills_withDefault {target : Node} [Suits .pattern target] :
    Fills .pattern (withDefault self lo target) := by
  unfold withDefault
  infer_instance

instance fills_patternElement : Fills .pattern (patternElement self) := by
  unfold patternElement
  infer_instance

instance fills_restElement : Fills .pattern (restElement self) := by
  unfold restElement
  infer_instance

instance fills_arrayPatternElement : Fills .pattern (arrayPatternElement self) := by
  unfold arrayPatternElement
  infer_instance

instance fills_objectPatternProperty : Fills .pattern (objectPatternProperty self) := by
  refine .skip fun lo => .skip fun _ => .ite inferInstance (.skip fun t => .skip fun u => ?_)
  refine .read fills_propertyKey fun key hkey => .skip fun _ => .ite inferInstance ?_
  split <;> infer_instance

instance fills_bindingPattern : Fills .target (bindingPattern self) := by
  refine .skip fun t => ?_
  split <;> infer_instance

instance fills_parameter : Fills .pattern (parameter self) := by
  unfold parameter
  infer_instance

instance fills_parameters : Fills .pattern (parameters self) := by
  unfold parameters
  infer_instance

/-! ## Types -/

instance fills_typeNode {items : List Node} [Suits .any items] : Fills .plain (typeNode lo items) := by
  unfold typeNode
  infer_instance

instance fills_typeParameters?_one : Fills .plain (typeParameters?.one self) := by
  unfold typeParameters?.one
  infer_instance

instance fills_typeParameters? : Fills .plain (typeParameters? self) := by
  unfold typeParameters?
  infer_instance

instance fills_typeArguments : Fills .plain (typeArguments self) := by
  unfold typeArguments
  infer_instance

instance fills_typeArguments? : Fills .plain (typeArguments? self) := by
  unfold typeArguments?
  infer_instance

instance fills_returnType : Fills .plain (returnType self) := by
  unfold returnType
  infer_instance

instance fills_returnAnnotation? : Fills .plain (returnAnnotation? self) := by
  unfold returnAnnotation?
  infer_instance

instance fills_indexSignature : Fills .any (indexSignature self) := by
  unfold indexSignature
  infer_instance

instance fills_signatureParameters : Fills .pattern (signatureParameters self) := by
  unfold signatureParameters
  infer_instance

instance fills_signatureRest : Fills .any (signatureRest self) := by
  unfold signatureRest
  infer_instance

instance fills_typeMember_key : Fills .plain (typeMember.key self) := by
  refine .read fills_propertyKey fun k hk => ?_
  split <;> infer_instance

instance fills_typeMember_signature : Fills .any (typeMember.signature self) := by
  unfold typeMember.signature
  infer_instance

instance fills_typeMember : Fills .plain (typeMember self) := by
  unfold typeMember
  infer_instance

instance fills_typeMembers : Fills .plain (typeMembers self) := by
  unfold typeMembers
  infer_instance

instance fills_mappedRest : Fills .plain (mappedRest self) := by
  unfold mappedRest
  infer_instance

instance fills_tupleElement : Fills .plain (tupleElement self) := by
  unfold tupleElement
  infer_instance

instance fills_functionTypeHead : Fills .any (functionTypeHead self) := by
  unfold functionTypeHead
  infer_instance

instance fills_primaryType_importType : Fills .plain (primaryType.importType self lo) := by
  unfold primaryType.importType
  infer_instance

instance fills_primaryType : Fills .plain (primaryType self) := by
  refine .skip fun t => ?_
  split
  case h_4 =>
    refine .skip fun _ => .skip fun u => ?_
    split <;> infer_instance
  case h_6 =>
    refine .skip fun found => ?_
    cases found <;> infer_instance
  all_goals infer_instance

instance fills_arrayType : Fills .plain (arrayType self) := by
  unfold arrayType
  infer_instance

instance fills_inferConstraint : Fills .plain (inferConstraint self) := by
  unfold inferConstraint
  infer_instance

instance fills_operatorType (fuel : Nat) : Fills .plain (operatorType self fuel) := by
  induction fuel with
  | zero => exact fills_fail
  | succ fuel ih =>
      unfold operatorType
      infer_instance

instance fills_joinedTypes {mark : Mark} {one : Parser Node} [Fills .plain one] :
    Fills .plain (joinedTypes mark one) := by
  unfold joinedTypes
  infer_instance

instance fills_unionType_functionOr {other : Parser Node} [Fills .plain other] :
    Fills .plain (unionType.functionOr self other) := by
  unfold unionType.functionOr
  infer_instance

instance fills_unionType : Fills .plain (unionType self) := by
  unfold unionType
  infer_instance

instance fills_anyType : Fills .plain (anyType self) := by
  unfold anyType
  infer_instance

end Parser

end Localization.Source
