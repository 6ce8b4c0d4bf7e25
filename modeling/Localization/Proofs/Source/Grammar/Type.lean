import Localization.Proofs.Source.Grammar.Parser
import Localization.Source.Grammar.Pattern
import Localization.Source.Grammar.Type

/-!
Texts and functions are in place in patterns, property keys, parameter lists and types.
-/

open Std.Do

set_option mvcgen.warning false

namespace Localization.Source.Parser

variable {self : Goal → Parser Node} [ReadsParts self] [g : Gap]

/-! ## Patterns -/

@[spec]
theorem annotation?_spec : Keeps g (annotation? self) (Placed g) := by
  mvcgen [annotation?]
  all_goals simp_all

@[spec]
theorem decorators_spec : Keeps g (decorators self) (Placed g) := by
  mvcgen [decorators]
  all_goals simp_all

@[spec]
theorem propertyKey_spec (privates : Bool) : Keeps g (propertyKey self privates) (Placed g) := by
  mvcgen [propertyKey, token_stays_spec, -token_spec, leaf_of_token_spec, -leaf_spec]
  all_goals simp_all

@[spec]
theorem withDefault_spec {lo : Nat} {target : Node} (hlo : g.Misses lo) (htarget : Placed g target) :
    Keeps g (withDefault self lo target) (Placed g) := by
  mvcgen [withDefault]
  all_goals simp_all

@[spec]
theorem patternElement_spec : Keeps g (patternElement self) (Placed g) := by
  mvcgen [patternElement]
  all_goals simp_all

@[spec]
theorem restElement_spec : Keeps g (restElement self) (Placed g) := by
  mvcgen [restElement]
  all_goals simp_all

@[spec]
theorem arrayPatternElement_spec : Keeps g (arrayPatternElement self) (Placed g) := by
  mvcgen [arrayPatternElement]
  all_goals simp_all

@[spec]
theorem objectPatternProperty_spec : Keeps g (objectPatternProperty self) (Placed g) := by
  mvcgen [objectPatternProperty]
  all_goals simp_all +zetaDelta

@[spec]
theorem bindingPattern_spec :
    Keeps g (bindingPattern self) fun n => Placed g n ∧ isPattern n.kind = true := by
  mvcgen [bindingPattern]
  all_goals simp_all

theorem isPart_annotated {target : Node} {types : List Node} {hi : Nat} (htarget : target.IsPart)
    (hpattern : isPattern target.kind = true) (htypes : Placed g types) :
    (annotated target types hi).IsPart := by
  obtain ⟨htext, helement, hfunction, hwrapper, -⟩ := kind_of_isPattern hpattern
  cases types with
  | nil => exact htarget
  | cons first rest =>
      refine Node.isPart_mk htext (fun h => absurd h (Bool.eq_false_iff.mp hfunction))
        (fun h => absurd h (Bool.eq_false_iff.mp hwrapper)) ?_
      intro part hpart
      rcases List.mem_append.mp hpart with hinner | htype
      · exact htarget.inPlace.isPart_child helement hinner
      · exact (htypes part htype).1

theorem clear_annotated {target : Node} {types : List Node} {hi : Nat} (htarget : target.Clear g)
    (hpattern : isPattern target.kind = true) (htypes : Placed g types) (hhi : g.EndsOff hi) :
    (annotated target types hi).Clear g := by
  obtain ⟨htext, -, -, -, hblock⟩ := kind_of_isPattern hpattern
  cases types with
  | nil => exact htarget
  | cons first rest =>
      refine .mk htarget.misses_lo hhi (fun h => absurd h hblock)
        (fun h => absurd h (Bool.eq_false_iff.mp htext))
        (Node.writes_of_isElementText (Kind.isElementText_of_isText htext)) (Node.filled_of_isText htext) ?_
      intro part hpart
      rcases List.mem_append.mp hpart with hinner | htype
      · exact htarget.child hinner
      · exact (htypes part htype).2

@[spec]
theorem skipParameterModifiers_spec : Keeps g skipParameterModifiers (Placed g) := by
  mvcgen [skipParameterModifiers]
  all_goals simp_all

@[spec]
theorem parameter_spec : Keeps g (parameter self) (Placed g) := by
  mvcgen [parameter]
  all_goals simp_all +zetaDelta [isPart_annotated, clear_annotated]

@[spec]
theorem parameters_spec : Keeps g (parameters self) (Placed g) := by
  mvcgen [parameters]
  all_goals simp_all

/-! ## Types -/

@[spec]
theorem typeNode_spec {lo : Nat} {parts : List Node} (hlo : g.Misses lo) (hparts : Placed g parts) :
    Keeps g (typeNode lo parts) (Placed g) := by
  mvcgen [typeNode]
  all_goals simp_all

@[spec]
theorem typeParameters?_one_spec : Keeps g (typeParameters?.one self) (Placed g) := by
  mvcgen [typeParameters?.one]
  all_goals simp_all

@[spec]
theorem typeParameters?_spec : Keeps g (typeParameters? self) (Placed g) := by
  mvcgen [typeParameters?]
  all_goals simp_all

@[spec]
theorem typeArguments_spec : Keeps g (typeArguments self) (Placed g) := by
  mvcgen [typeArguments]
  all_goals simp_all

@[spec]
theorem typeArguments?_spec : Keeps g (typeArguments? self) (Placed g) := by
  mvcgen [typeArguments?]
  all_goals simp_all

@[spec]
theorem returnType_spec : Keeps g (returnType self) (Placed g) := by
  mvcgen [returnType]
  all_goals simp_all

@[spec]
theorem returnAnnotation?_spec : Keeps g (returnAnnotation? self) (Placed g) := by
  mvcgen [returnAnnotation?]
  all_goals simp_all

@[spec]
theorem entityName_spec {first : Parser String} (hfirst : Keeps g first fun _ => True) :
    Keeps g (entityName first) fun _ => True := by
  mvcgen [entityName, hfirst]
  all_goals simp_all

@[spec]
theorem isIndexSignature_spec : Keeps g isIndexSignature fun _ => True :=
  looksLike_spec _

@[spec]
theorem indexSignature_spec : Keeps g (indexSignature self) (Placed g) := by
  mvcgen [indexSignature]
  all_goals simp_all

@[spec]
theorem signatureParameters_spec : Keeps g (signatureParameters self) (Placed g) := by
  mvcgen [signatureParameters]

@[spec]
theorem signatureRest_spec : Keeps g (signatureRest self) (Placed g) := by
  mvcgen [signatureRest]
  all_goals simp_all

@[spec]
theorem typeMember_key_spec : Keeps g (typeMember.key self) (Placed g) := by
  mvcgen [typeMember.key]
  all_goals simp_all
  next hkey => exact hkey.2.2.leaf_span (by simp_all) rfl (by simp)

@[spec]
theorem typeMember_signature_spec :
    Keeps g (typeMember.signature self) (Placed g) := by
  mvcgen [typeMember.signature]
  all_goals simp_all

@[spec]
theorem typeMember_spec : Keeps g (typeMember self) (Placed g) := by
  mvcgen [typeMember]
  all_goals simp_all

@[spec]
theorem typeMembers_spec : Keeps g (typeMembers self) (Placed g) := by
  mvcgen [typeMembers]
  all_goals simp_all

@[spec]
theorem mappedSign_spec : Keeps g mappedSign fun _ => True := by
  mvcgen [mappedSign]
  all_goals simp_all

@[spec]
theorem mappedHead_spec : Keeps g mappedHead (Placed g) := by
  mvcgen [mappedHead]
  all_goals simp_all

@[spec]
theorem mappedRest_spec : Keeps g (mappedRest self) (Placed g) := by
  mvcgen [mappedRest]
  all_goals simp_all

@[spec]
theorem tupleElement_spec : Keeps g (tupleElement self) (Placed g) := by
  mvcgen [tupleElement]
  all_goals simp_all

@[spec]
theorem functionTypeHead_spec : Keeps g (functionTypeHead self) (Placed g) := by
  mvcgen [functionTypeHead]
  all_goals simp_all

@[spec]
theorem primaryType_importType_spec {lo : Nat} (hlo : g.Misses lo) :
    Keeps g (primaryType.importType self lo) (Placed g) := by
  mvcgen [primaryType.importType]
  all_goals simp_all

@[spec]
theorem primaryType_spec : Keeps g (primaryType self) (Placed g) := by
  mvcgen [primaryType]
  all_goals simp_all +zetaDelta

@[spec]
theorem arrayType_spec : Keeps g (arrayType self) (Placed g) := by
  mvcgen [arrayType]
  all_goals simp_all

@[spec]
theorem inferConstraint_spec : Keeps g (inferConstraint self) (Placed g) := by
  mvcgen [inferConstraint]
  all_goals simp_all

@[spec]
theorem operatorType_spec (fuel : Nat) : Keeps g (operatorType self fuel) (Placed g) := by
  induction fuel with
  | zero => exact fail_spec
  | succ fuel ih =>
      mvcgen [operatorType, ih]
      all_goals simp_all

@[spec]
theorem joinedTypes_spec {mark : Mark} {one : Parser Node}
    (hone : Keeps g one (Placed g)) :
    Keeps g (joinedTypes mark one) (Placed g) := by
  mvcgen [joinedTypes, hone]
  all_goals simp_all

@[spec]
theorem unionType_functionOr_spec {other : Parser Node}
    (hother : Keeps g other (Placed g)) :
    Keeps g (unionType.functionOr self other) (Placed g) := by
  mvcgen [unionType.functionOr, hother]
  all_goals simp_all

@[spec]
theorem unionType_spec : Keeps g (unionType self) (Placed g) := by
  mvcgen [unionType]

@[spec]
theorem anyType_spec : Keeps g (anyType self) (Placed g) := by
  mvcgen [anyType]
  all_goals simp_all

end Localization.Source.Parser
