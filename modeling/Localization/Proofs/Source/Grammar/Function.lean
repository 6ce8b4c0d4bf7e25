import Localization.Source.Grammar.Function
import Localization.Proofs.Source.Grammar.Type

/-!
Texts and functions are in place in functions, arrow functions and classes.
-/

open Std.Do

set_option mvcgen.warning false

namespace Localization.Source.Parser

variable {self : Goal → Parser Node} [ReadsParts self] [g : Gap]

@[spec]
theorem statementsToBrace_spec {item : Parser Node} (hitem : Keeps g item (Placed g)) :
    Keeps g (statementsToBrace item) (Placed g) := by
  mvcgen [statementsToBrace, hitem]
  all_goals simp_all

@[spec]
theorem blockStatement_spec : Keeps g (blockStatement self) (Placed g) := by
  mvcgen [blockStatement, node_of_parts_spec, -node_spec]
  all_goals simp_all

@[spec]
theorem functionBody?_spec : Keeps g (functionBody? self) (Placed g) := by
  mvcgen [functionBody?]
  all_goals simp_all

@[spec]
theorem functionRest_spec {lo : Nat} {marks : List Node} {isAsync isGenerator : Bool}
    (hlo : g.Misses lo) (hmarks : Placed g marks) :
    Keeps g (functionRest self lo marks isAsync isGenerator)
      fun n => Placed g n ∧ n.kind.isCall = false ∧ n.kind.isFunction = true := by
  have hflags := @withFlags_forall_spec g Node
  mvcgen [functionRest, hflags, -withFlags_spec]
  all_goals simp_all

@[spec]
theorem namedFunction_spec {lo : Nat} (hlo : g.Misses lo) (isAsync : Bool) :
    Keeps g (namedFunction self lo isAsync)
      fun r => Placed g r ∧ r.2.kind.isCall = false ∧ r.2.kind.isFunction = true ∧
        ∀ n ∈ r.1, n.kind.isCall = false := by
  mvcgen [namedFunction]
  all_goals simp_all +zetaDelta

@[spec]
theorem arrowHead_spec {isAsync : Bool} {result : Parser (List Node)}
    (hresult : Keeps g result (Placed g)) : Keeps g (arrowHead isAsync self result) (Placed g) := by
  mvcgen [arrowHead, hresult]
  all_goals simp_all

@[spec]
theorem arrowRest_spec {lo : Nat} {isAsync : Bool} {ps types : List Node} (hlo : g.Misses lo)
    (hps : Placed g ps) (htypes : Placed g types) :
    Keeps g (arrowRest self lo isAsync ps types) (Placed g) := by
  mvcgen [arrowRest]
  all_goals simp_all

@[spec]
theorem arrowFrom?_spec {lo : Nat} (hlo : g.Misses lo) (isAsync : Bool) :
    Keeps g (arrowFrom? self lo isAsync) (Placed g) := by
  mvcgen [arrowFrom?]
  all_goals simp_all

/-- A parameter that is a name. -/
theorem placed_parameter {name : String} {span : Span} (hlo : g.next ≤ span.lo)
    (hhi : g.Stops span.hi) : Placed g (Node.mk .parameter span [.leaf (.binding name) span]) :=
  ⟨Node.isPart_mk rfl nofun nofun (by simp), Node.clear_mk hlo hhi nofun nofun (by simp [hlo, hhi])⟩

@[spec]
theorem soleParameter_spec : Keeps g soleParameter (Placed g) := by
  mvcgen [soleParameter]
  all_goals simp_all +zetaDelta [-placed_node, placed_parameter]

@[spec]
theorem beginsTypeParameters_spec : Keeps g beginsTypeParameters fun _ => True :=
  looksLike_spec _

@[spec]
theorem arrowFunction?_spec : Keeps g (arrowFunction? self) (Placed g) := by
  mvcgen [arrowFunction?]
  all_goals simp_all

@[spec]
theorem modifier?_spec (words : List String) : Keeps g (modifier? words) fun _ => True := by
  mvcgen [modifier?]
  all_goals simp_all

@[spec]
theorem modifiers_spec : Keeps g modifiers fun _ => True := by
  mvcgen [modifiers]
  all_goals simp_all

@[spec]
theorem classPropertyRest_spec {lo : Nat} {marks : List Node} {key : Node} (hlo : g.Misses lo)
    (hmarks : Placed g marks) (hkey : Placed g key) :
    Keeps g (classPropertyRest self lo marks key) (Placed g) := by
  mvcgen [classPropertyRest]
  all_goals simp_all

@[spec]
theorem memberFromKey_spec {lo : Nat} {marks : List Node} {words : List String}
    {isAsync isGenerator isAccessor : Bool} (hlo : g.Misses lo) (hmarks : Placed g marks) :
    Keeps g (memberFromKey self lo marks words isAsync isGenerator isAccessor) (Placed g) := by
  mvcgen [memberFromKey]
  all_goals simp_all

@[spec]
theorem classMember_spec : Keeps g (classMember self) (Placed g) := by
  mvcgen [classMember]
  all_goals simp_all

@[spec]
theorem heritage_spec : Keeps g (heritage self) (Placed g) := by
  mvcgen [heritage]
  all_goals simp_all

@[spec]
theorem listed_spec {item : Parser Node} (hitem : Keeps g item (Placed g)) :
    Keeps g (listed item) (Placed g) := by
  mvcgen [listed, hitem]
  all_goals simp_all

@[spec]
theorem superclass_spec : Keeps g (superclass self) (Placed g) := by
  mvcgen [superclass]
  all_goals simp_all

@[spec]
theorem heritageClauses_implemented_spec :
    Keeps g (heritageClauses.implemented self) (Placed g) := by
  mvcgen [heritageClauses.implemented]
  all_goals simp_all

@[spec]
theorem heritageClauses_spec : Keeps g (heritageClauses self) (Placed g) := by
  mvcgen [heritageClauses]
  all_goals simp_all

@[spec]
theorem classTail_spec {lo : Nat} {marks : List Node} (hlo : g.Misses lo) (hmarks : Placed g marks) :
    Keeps g (classTail self lo marks) (Placed g) := by
  mvcgen [classTail]
  all_goals simp_all

@[spec]
theorem namedClass_spec {lo : Nat} {marks : List Node} (hlo : g.Misses lo) (hmarks : Placed g marks) :
    Keeps g (namedClass self lo marks) (Placed g) := by
  mvcgen [namedClass]
  all_goals simp_all +zetaDelta

end Localization.Source.Parser
