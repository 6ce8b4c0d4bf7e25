import Localization.Proofs.Source.Bound.Type

/-!
Functions, classes, elements and expressions are formed, and none of them is a pattern. The parameters of a
function are patterns; expressions in the place of parameters bind names only if they are names.
-/

-- The instance of a long reader is built from those of all its steps.
set_option synthInstance.maxSize 1000000

namespace Localization.Source.Parser

variable {self : Goal → Parser Node} [FillsSlots self] {lo : Nat} {marks ps types : List Node} {key e : Node}
  {isAsync isGenerator : Bool}

/-! ## Functions -/

instance fills_statementsToBrace {item : Parser Node} [Fills .plain item] : Fills .plain (statementsToBrace item) := by
  unfold statementsToBrace
  infer_instance

instance fills_blockStatement : Fills .plain (blockStatement self) := by
  unfold blockStatement
  infer_instance

instance fills_functionBody? : Fills .plain (functionBody? self) := by
  unfold functionBody?
  infer_instance

instance fills_functionRest [Suits .any marks] :
    Fills .plain (functionRest self lo marks isAsync isGenerator) := by
  unfold functionRest
  infer_instance

instance fills_namedFunction : Fills .any (namedFunction self lo isAsync) := by
  unfold namedFunction
  infer_instance

instance fills_arrowHead {result : Parser (List Node)} [Fills .plain result] :
    Fills .any (arrowHead isAsync self result) := by
  unfold arrowHead
  infer_instance

instance fills_arrowRest [Suits .any ps] [Suits .any types] :
    Fills .plain (arrowRest self lo isAsync ps types) := by
  unfold arrowRest
  infer_instance

instance fills_arrowFrom? : Fills .plain (arrowFrom? self lo isAsync) := by
  have hlast (waiting : Bool) : Fills .plain (do
      match ← attempt (arrowHead isAsync self (if waiting then pure [] else returnAnnotation? self)) with
      | some (ps, types) => return some (← arrowRest self lo isAsync ps types)
      | none => return none) := by
    refine .readOption (inferInstance : Fills .any _) inferInstance fun head hhead => ?_
    have hps := hhead.fst
    have htypes := hhead.snd
    infer_instance
  unfold arrowFrom?
  refine .skip fun c => .ite (.read (inferInstance : Fills .plain _) fun annotated hannotated => ?_) (hlast _)
  exact .ite fills_pure (hlast _)

instance suits_nameParameter {name : String} {span : Span} :
    Suits .pattern (Node.mk .parameter span [.leaf (.binding name) span]) :=
  suits_pattern_of_binds rfl (@Node.Binds.parameter span [] _ _ nofun .name) inferInstance

instance fills_soleParameter : Fills .pattern soleParameter := by
  unfold soleParameter
  infer_instance

instance fills_arrowFunction? : Fills .plain (arrowFunction? self) := by
  unfold arrowFunction?
  infer_instance

/-! ## Classes -/

instance fills_classPropertyRest [Suits .any marks] [Suits .plain key] :
    Fills .plain (classPropertyRest self lo marks key) := by
  unfold classPropertyRest
  infer_instance

instance fills_memberFromKey {words : List String} {isAccessor : Bool} [Suits .any marks] :
    Fills .plain (memberFromKey self lo marks words isAsync isGenerator isAccessor) := by
  unfold memberFromKey
  infer_instance

instance fills_classMember : Fills .plain (classMember self) := by
  unfold classMember
  infer_instance

instance fills_heritage : Fills .plain (heritage self) := by
  unfold heritage
  infer_instance

instance fills_listed {item : Parser Node} [Fills .plain item] : Fills .plain (listed item) := by
  unfold listed
  infer_instance

instance fills_superclass : Fills .plain (superclass self) := by
  unfold superclass
  infer_instance

instance fills_heritageClauses_implemented : Fills .plain (heritageClauses.implemented self) := by
  unfold heritageClauses.implemented
  infer_instance

instance fills_heritageClauses : Fills .any (heritageClauses self) := by
  unfold heritageClauses
  infer_instance

instance fills_classTail [Suits .any marks] : Fills .plain (classTail self lo marks) := by
  unfold classTail
  infer_instance

instance fills_namedClass [Suits .any marks] : Fills .any (namedClass self lo marks) := by
  unfold namedClass
  infer_instance

/-! ## Elements -/

instance fills_nodeThrough {kind : Kind} [PlainKind kind] {items : List Node} [Suits .any items] :
    Fills .plain (nodeThrough kind lo items) := by
  refine .skip fun t => fills_pure (h := suits_mk_of_plainKind inferInstance inferInstance)

instance fills_attributeString {c : Cursor} {quote : Char} : Fills .plain (attributeString c quote) := by
  unfold attributeString
  split <;> infer_instance

instance fills_attributeValue : Fills .plain (attributeValue self) := by
  refine .skip fun c => ?_
  split <;> infer_instance

instance fills_tagAttribute : Fills .plain (tagAttribute self) := by
  unfold tagAttribute
  infer_instance

instance fills_tagAttributes : Fills .plain (tagAttributes self) := by
  unfold tagAttributes
  infer_instance

instance fills_childText : Fills .plain childText := by
  refine .skip fun c => ?_
  split <;> infer_instance

instance fills_childContainer : Fills .plain (childContainer self) := by
  unfold childContainer
  infer_instance

instance fills_children : Fills .plain (children self) := by
  unfold children
  infer_instance

instance fills_jsxElement : Fills .plain (jsxElement self) := by
  unfold jsxElement
  infer_instance

/-! ## Operands -/

instance fills_argument : Fills .plain (argument self) := by
  unfold argument
  infer_instance

instance fills_callArguments : Fills .plain (callArguments self) := by
  unfold callArguments
  infer_instance

instance fills_templateNode {tagged : Bool} : Fills .plain (templateNode self tagged) := by
  unfold templateNode
  infer_instance

instance fills_objectProperty : Fills .plain (objectProperty self) := by
  unfold objectProperty
  infer_instance

instance fills_arrayElement : Fills .any (arrayElement self) := by
  unfold arrayElement
  infer_instance

instance fills_importExpression_call [Suits .plain key] :
    Fills .plain (importExpression.call self lo key) := by
  unfold importExpression.call
  infer_instance

instance fills_importExpression : Fills .plain (importExpression self) := by
  unfold importExpression
  infer_instance

instance fills_superExpression_memberName : Fills .plain superExpression.memberName := by
  refine .skip fun t => ?_
  split <;> infer_instance

instance fills_superExpression : Fills .plain (superExpression self) := by
  unfold superExpression
  infer_instance

instance fills_memberName : Fills .plain memberName := by
  refine .skip fun t => ?_
  split <;> infer_instance

instance fills_newExpression : Fills .plain (newExpression self) := by
  unfold newExpression
  infer_instance

instance fills_regularExpression : Fills .plain regularExpression := by
  refine .skip fun t => ?_
  split <;> infer_instance

instance fills_primary_identifierNode : Fills .plain (primary.identifierNode lo) := by
  unfold primary.identifierNode
  infer_instance

instance fills_primary : Fills .plain (primary self) := by
  refine .skip fun t => ?_
  split <;> infer_instance

instance fills_appliedTypeArguments {calls : Bool} : Fills .plain (appliedTypeArguments self calls) := by
  unfold appliedTypeArguments
  infer_instance

instance fills_optionalAccess [Suits .plain e] : Fills .plain (optionalAccess self lo e) := by
  unfold optionalAccess
  infer_instance

instance fills_access? {calls : Bool} [Suits .plain e] : Fills .plain (access? self calls e) := by
  refine .skip fun t => ?_
  split <;> infer_instance

instance fills_operand {calls : Bool} : Fills .plain (operand self calls) := by
  unfold operand
  infer_instance

/-! ## Operators applied -/

instance fills_postfixExpression : Fills .plain (postfixExpression self) := by
  unfold postfixExpression
  infer_instance

instance fills_awaitExpression : Fills .plain (awaitExpression self) := by
  unfold awaitExpression
  infer_instance

instance fills_unaryExpression : Fills .plain (unaryExpression self) := by
  refine .skip fun t => ?_
  split <;> infer_instance

instance fills_joined {right : Nat → Parser Node} [∀ n, Fills .plain (right n)] {least : Nat} {first : Node}
    [Suits .plain first] : Fills .plain (joined self right least lo first) := by
  refine fills_extending (h := fun left => .skip fun c => ?_)
  split <;> infer_instance

instance fills_binaryExpression (fuel least : Nat) : Fills .plain (binaryExpression self fuel least) := by
  induction fuel generalizing least with
  | zero => exact fills_fail
  | succ fuel ih =>
      unfold binaryExpression
      infer_instance

instance fills_binaryRest [Suits .plain e] : Fills .plain (binaryRest self lo e) := by
  unfold binaryRest
  infer_instance

instance fills_conditionalRest [Suits .plain e] : Fills .plain (conditionalRest self lo e) := by
  unfold conditionalRest
  infer_instance

instance fills_conditionalExpression : Fills .plain (conditionalExpression self) := by
  unfold conditionalExpression
  infer_instance

instance fills_yieldExpression : Fills .plain (yieldExpression self) := by
  unfold yieldExpression
  infer_instance

instance fills_assignmentExpression_operatorsBehind [Suits .plain e] :
    Fills .plain (assignmentExpression.operatorsBehind self lo e) := by
  refine .skip fun c => ?_
  split <;> infer_instance

/-- In the place of parameters names are parameters, and other expressions bind nothing. -/
instance suits_looseParameters : Suits .pattern (looseParameters e) := by
  refine ⟨fun n hn => ?_⟩
  obtain ⟨item, -, rfl⟩ := List.mem_map.mp hn
  split
  · exact suits_node_iff.mp inferInstance
  · exact suits_node_iff.mp (suits_pattern_of_binds rfl .noParameter inferInstance)

instance suits_flatMap_looseParameters {items : List Node} : Suits .pattern (items.flatMap looseParameters) :=
  ⟨List.forall_mem_flatMap.mpr fun _ _ => suits_looseParameters.takes⟩

instance fills_assignmentExpression_looseArrow [Suits .plain e] :
    Fills .plain (assignmentExpression.looseArrow self lo e) := by
  unfold assignmentExpression.looseArrow
  infer_instance

instance fills_assignmentExpression : Fills .plain (assignmentExpression self) := by
  have hassigned (lo : Nat) : Fills .plain (do
      let left ← conditionalExpression self
      match operator? (← get) with
      | some (.assign, after) =>
        if ← isMark .equal then
          unless isAssignable left && isPatternLike left do fail
        else
          unless isPlace left do fail
        moveTo after
        let right ← self .assignment
        node .assign lo [left, right]
      | _ =>
        if left.kind == .paren && (← isMark .arrow) && !(← newlineBefore) then
          assignmentExpression.looseArrow self lo left
        else return left) := by
    refine .read fills_conditionalExpression fun left hleft => .skip fun c => ?_
    split <;> infer_instance
  unfold assignmentExpression
  infer_instance

instance fills_sequenceExpression : Fills .plain (sequenceExpression self) := by
  unfold sequenceExpression
  infer_instance

end Localization.Source.Parser
