import Localization.Source.Grammar.Expression
import Localization.Proofs.Source.Grammar.Jsx

/-!
Texts and functions are in place in expressions.
-/

open Std.Do

set_option mvcgen.warning false

namespace Localization.Source.Parser

variable {self : Goal → Parser Node} [ReadsParts self] [g : Gap]

@[spec]
theorem argument_spec : Keeps g (argument self) (Placed g) := by
  mvcgen [argument, node_of_parts_spec, -node_spec]
  all_goals simp_all

@[spec]
theorem callArguments_spec : Keeps g (callArguments self) (Placed g) := by
  mvcgen [callArguments]
  all_goals simp_all

@[spec]
theorem templateNode_spec (tagged : Bool) :
    Keeps g (templateNode self tagged) (Placed g) := by
  mvcgen [templateNode]
  all_goals simp_all

@[spec]
theorem objectProperty_spec : Keeps g (objectProperty self) (Placed g) := by
  mvcgen [objectProperty]
  all_goals simp_all

@[spec]
theorem arrayElement_spec : Keeps g (arrayElement self) (Placed g) := by
  mvcgen [arrayElement]
  all_goals simp_all

@[spec]
theorem importExpression_call_spec {lo : Nat} {keyword : Node} (hlo : g.Misses lo)
    (hkeyword : Placed g keyword) :
    Keeps g (importExpression.call self lo keyword) (Placed g) := by
  mvcgen [importExpression.call]
  all_goals simp_all

@[spec]
theorem importExpression_spec : Keeps g (importExpression self) (Placed g) := by
  mvcgen [importExpression]
  all_goals simp_all

@[spec]
theorem superExpression_memberName_spec :
    Keeps g superExpression.memberName (Placed g) := by
  mvcgen [superExpression.memberName]
  all_goals simp_all

@[spec]
theorem superExpression_spec : Keeps g (superExpression self) (Placed g) := by
  mvcgen [superExpression]
  all_goals simp_all

@[spec]
theorem memberName_spec : Keeps g memberName (Placed g) := by
  mvcgen [memberName]
  all_goals simp_all

@[spec]
theorem newExpression_spec : Keeps g (newExpression self) (Placed g) := by
  mvcgen [newExpression]
  all_goals simp_all

@[spec]
theorem regularExpression_spec :
    ⦃fun c => ⌜c.Behind g ∧ c.token.kind = .mark .slash⌝⦄ regularExpression
    ⦃⇓? n c => ⌜c.Behind g ∧ Placed g n⌝⦄ := by
  mvcgen [regularExpression]
  · next hc _ hscan => exact hc.1.admits_regularExpression hc.2 hscan
  all_goals simp_all [Cursor.Behind.le_lo]

@[spec]
theorem primary_identifierNode_spec {lo : Nat} (hlo : g.Misses lo) :
    Keeps g (primary.identifierNode lo) (Placed g) := by
  mvcgen [primary.identifierNode]
  all_goals simp_all

@[spec]
theorem primary_spec : Keeps g (primary self) (Placed g) := by
  mvcgen [primary, node_of_parts_spec, -node_spec, token_stays_spec, -token_spec, leaf_of_token_spec, -leaf_spec]
  all_goals simp_all +zetaDelta [or_imp]

@[spec]
theorem appliedTypeArguments_spec (calls : Bool) :
    Keeps g (appliedTypeArguments self calls) (Placed g) := by
  mvcgen [appliedTypeArguments]

@[spec]
theorem optionalAccess_spec {lo : Nat} {e : Node} (hlo : g.Misses lo) (he : Placed g e) :
    Keeps g (optionalAccess self lo e) (Placed g) := by
  mvcgen [optionalAccess]
  all_goals simp_all

@[spec]
theorem access?_spec {calls : Bool} {e : Node} (he : Placed g e) :
    Keeps g (access? self calls e) (Placed g) := by
  mvcgen [access?]
  all_goals simp_all +zetaDelta
  all_goals by_cases hchain : isChain e = true <;> simp_all

@[spec]
theorem operand_spec (calls : Bool) : Keeps g (operand self calls) (Placed g) := by
  mvcgen [operand]
  all_goals simp_all

@[spec]
theorem postfixExpression_spec : Keeps g (postfixExpression self) (Placed g) := by
  mvcgen [postfixExpression]
  all_goals simp_all

@[spec]
theorem awaitExpression_spec : Keeps g (awaitExpression self) (Placed g) := by
  mvcgen [awaitExpression]
  all_goals simp_all

@[spec]
theorem unaryExpression_spec : Keeps g (unaryExpression self) (Placed g) := by
  mvcgen [unaryExpression]
  all_goals simp_all +zetaDelta

@[spec]
theorem joined_spec {right : Nat → Parser Node} {least lo : Nat} {first : Node}
    (hright : ∀ precedence, Keeps g (right precedence) (Placed g)) (hlo : g.Misses lo)
    (hfirst : Placed g first) : Keeps g (joined self right least lo first) (Placed g) := by
  have hkind (isAs : Bool) :
      Placed g (if isAs then Kind.asExpression else Kind.satisfiesExpression) := by
    cases isAs <;> simp
  mvcgen [joined, hright]
  all_goals first | exact hkind _ | simp_all
  all_goals exact Cursor.admits_of_operator? ‹_› ‹_›

@[spec]
theorem binaryExpression_spec (fuel least : Nat) :
    Keeps g (binaryExpression self fuel least) (Placed g) := by
  induction fuel generalizing least with
  | zero => exact fail_spec
  | succ fuel ih =>
      mvcgen [binaryExpression, ih]
      all_goals simp_all

@[spec]
theorem binaryRest_spec {lo : Nat} {first : Node} (hlo : g.Misses lo) (hfirst : Placed g first) :
    Keeps g (binaryRest self lo first) (Placed g) := by
  mvcgen [binaryRest]

@[spec]
theorem conditionalRest_spec {lo : Nat} {test : Node} (hlo : g.Misses lo) (htest : Placed g test) :
    Keeps g (conditionalRest self lo test) (Placed g) := by
  mvcgen [conditionalRest]
  all_goals simp_all

@[spec]
theorem conditionalExpression_spec : Keeps g (conditionalExpression self) (Placed g) := by
  mvcgen [conditionalExpression]
  all_goals simp_all

@[spec]
theorem yieldExpression_spec : Keeps g (yieldExpression self) (Placed g) := by
  mvcgen [yieldExpression]
  all_goals simp_all

theorem placed_looseParameters {e : Node} (he : e.Clear g) : Placed g (looseParameters e) := by
  intro n hn
  obtain ⟨item, hitem, rfl⟩ := List.mem_map.mp hn
  have hclear : item.Clear g := by
    split at hitem
    · exact he.child hitem
    · obtain rfl := List.mem_singleton.mp hitem
      exact he
  split
  · refine ⟨Node.isPart_mk rfl nofun nofun (by simp),
      .mk hclear.misses_lo hclear.endsOff nofun nofun nofun nofun ?_⟩
    intro part hpart
    obtain rfl := List.mem_singleton.mp hpart
    exact hclear.leaf_span nofun rfl nofun
  · exact ⟨Node.isPart_leaf.mpr rfl, hclear.leaf_span nofun rfl nofun⟩

@[spec]
theorem assignmentExpression_operatorsBehind_spec {lo : Nat} {e : Node} (hlo : g.Misses lo)
    (he : Placed g e) : Keeps g (assignmentExpression.operatorsBehind self lo e) (Placed g) := by
  mvcgen [assignmentExpression.operatorsBehind]
  all_goals simp_all

@[spec]
theorem assignmentExpression_looseArrow_spec {lo : Nat} {list : Node} (hlo : g.Misses lo)
    (hlist : Placed g list) : Keeps g (assignmentExpression.looseArrow self lo list) (Placed g) := by
  have hparameters (n : Node) (hn : n ∈ list.children) : Placed g (looseParameters n) :=
    placed_looseParameters (hlist.2.child hn)
  mvcgen [assignmentExpression.looseArrow]
  all_goals simp_all

@[spec]
theorem assignmentExpression_spec : Keeps g (assignmentExpression self) (Placed g) := by
  mvcgen [assignmentExpression]
  all_goals simp_all
  all_goals exact Cursor.admits_of_operator? ‹_› (And.left ‹_›)

@[spec]
theorem sequenceExpression_spec : Keeps g (sequenceExpression self) (Placed g) := by
  mvcgen [sequenceExpression]
  all_goals simp_all

end Localization.Source.Parser
