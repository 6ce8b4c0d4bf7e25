import Localization.Source.Grammar.Statement
import Localization.Proofs.Source.Grammar.Expression

/-!
Texts and functions are in place in statements and declarations.
-/

open Std.Do

set_option mvcgen.warning false

namespace Localization.Source.Parser

variable {self : Goal → Parser Node} [ReadsParts self] [g : Gap]

@[spec]
theorem declarator_spec (isLexical needsValue inHead : Bool) :
    Keeps g (declarator self isLexical needsValue inHead) (Placed g) := by
  mvcgen [declarator]
  all_goals simp_all +zetaDelta [isPart_annotated, clear_annotated]

@[spec]
theorem declarators_one_spec (keyword : String) (inHead : Bool) :
    Keeps g (declarators.one self keyword inHead) (Placed g) := by
  mvcgen [declarators.one]

@[spec]
theorem declarators_spec (keyword : String) (inHead : Bool) :
    Keeps g (declarators self keyword inHead) (Placed g) := by
  mvcgen [declarators]
  all_goals simp_all

@[spec]
theorem skipToEnd_spec : Keeps g skipToEnd (Placed g) := by
  mvcgen [skipToEnd]
  all_goals simp_all

@[spec]
theorem declarationEnd_spec : Keeps g (declarationEnd self) (Placed g) := by
  mvcgen [declarationEnd]
  all_goals simp_all

@[spec]
theorem variableDeclaration_spec {lo : Nat} (hlo : g.Misses lo) (keyword : String) :
    Keeps g (variableDeclaration self lo keyword) (Placed g) := by
  mvcgen [variableDeclaration]
  all_goals simp_all

@[spec]
theorem isLetDeclaration_spec : Keeps g isLetDeclaration fun _ => True := by
  mvcgen [isLetDeclaration]

@[spec]
theorem isUsingDeclaration_spec : Keeps g isUsingDeclaration fun _ => True :=
  looksLike_spec _

@[spec]
theorem usingDeclaration_spec {lo : Nat} (hlo : g.Misses lo) (inHead : Bool) :
    Keeps g (usingDeclaration self lo inHead) fun n => Placed g n ∧ n.kind = .usingDeclaration := by
  mvcgen [usingDeclaration]
  all_goals simp_all

@[spec]
theorem declaredName_spec : Keeps g declaredName (Placed g) := by
  mvcgen [declaredName]
  all_goals simp_all +zetaDelta

@[spec]
theorem interfaceRest_spec {lo : Nat} (hlo : g.Misses lo) : Keeps g (interfaceRest self lo) (Placed g) := by
  mvcgen [interfaceRest]
  all_goals simp_all

@[spec]
theorem typeAliasRest_spec {lo : Nat} (hlo : g.Misses lo) : Keeps g (typeAliasRest self lo) (Placed g) := by
  mvcgen [typeAliasRest]
  all_goals simp_all

@[spec]
theorem enumMemberName_spec : Keeps g (enumMemberName self) (Placed g) := by
  mvcgen [enumMemberName]
  all_goals simp_all
  next hkey _ => exact hkey.2.2.leaf_span (by simp) rfl (by simp)

@[spec]
theorem enumMember_spec : Keeps g (enumMember self) (Placed g) := by
  mvcgen [enumMember]
  all_goals simp_all

@[spec]
theorem enumMembers_spec : Keeps g (enumMembers self) (Placed g) := by
  mvcgen [enumMembers]
  all_goals simp_all

@[spec]
theorem enumRest_spec {lo : Nat} (hlo : g.Misses lo) : Keeps g (enumRest self lo) (Placed g) := by
  mvcgen [enumRest]
  all_goals simp_all

@[spec]
theorem moduleBlock_spec : Keeps g (moduleBlock self) (Placed g) := by
  mvcgen [moduleBlock]
  all_goals simp_all

@[spec]
theorem namespaceRest_spec {lo : Nat} (hlo : g.Misses lo) : Keeps g (namespaceRest self lo) (Placed g) := by
  mvcgen [namespaceRest]
  all_goals simp_all

@[spec]
theorem externalModuleRest_spec {lo : Nat} (hlo : g.Misses lo) :
    Keeps g (externalModuleRest self lo) (Placed g) := by
  mvcgen [externalModuleRest]
  all_goals simp_all

@[spec]
theorem classDeclaration_spec {lo : Nat} {marks : List Node} (hlo : g.Misses lo)
    (hmarks : Placed g marks) :
    Keeps g (classDeclaration self lo marks) (Placed g) := by
  mvcgen [classDeclaration]
  all_goals simp_all

@[spec]
theorem functionDeclaration_spec {lo : Nat} (hlo : g.Misses lo) (isAsync : Bool) :
    Keeps g (functionDeclaration self lo isAsync) (Placed g) := by
  mvcgen [functionDeclaration, node_of_parts_spec, -node_spec]
  all_goals simp_all [or_imp]

@[spec]
theorem typeDeclaration?_spec {lo : Nat} {marks : List Node} (hlo : g.Misses lo)
    (hmarks : Placed g marks) :
    Keeps g (typeDeclaration? self lo marks) (Placed g) := by
  mvcgen [typeDeclaration?]
  all_goals simp_all

@[spec]
theorem declaration?_spec {lo : Nat} {marks : List Node} (hlo : g.Misses lo)
    (hmarks : Placed g marks) :
    Keeps g (declaration? self lo marks) (Placed g) := by
  mvcgen [declaration?]
  all_goals simp_all [placed_children]

@[spec]
theorem anyDeclaration?_spec {lo : Nat} {marks : List Node} (hlo : g.Misses lo)
    (hmarks : Placed g marks) :
    Keeps g (anyDeclaration? self lo marks) (Placed g) := by
  mvcgen [anyDeclaration?]
  all_goals simp_all

@[spec]
theorem expressionStatement_spec {lo : Nat} (hlo : g.Misses lo) :
    Keeps g (expressionStatement self lo) (Placed g) := by
  mvcgen [expressionStatement, node_of_parts_spec, -node_spec]
  all_goals simp_all

@[spec]
theorem condition_spec : Keeps g (condition self) (Placed g) := by
  mvcgen [condition]
  all_goals simp_all

omit [ReadsParts self] in
@[spec]
theorem forHead_lacksName_spec : Keeps g (forHead.lacksName self) fun _ => True := by
  mvcgen [forHead.lacksName]
  all_goals simp_all

@[spec]
theorem forHead_start_spec : Keeps g (forHead.start self) (Placed g) := by
  mvcgen [forHead.start]
  all_goals simp_all

@[spec]
theorem forHead_counting_spec {first : List Node} (hfirst : Placed g first) :
    Keeps g (forHead.counting self first) (Placed g) := by
  mvcgen [forHead.counting]
  all_goals simp_all

@[spec]
theorem forHead_spec (isAwait : Bool) : Keeps g (forHead self isAwait) (Placed g) := by
  mvcgen [forHead]
  all_goals simp_all

@[spec]
theorem switchCase_spec : Keeps g (switchCase self) (Placed g) := by
  mvcgen [switchCase]
  all_goals simp_all

@[spec]
theorem switchStatement_spec {lo : Nat} (hlo : g.Misses lo) :
    Keeps g (switchStatement self lo) (Placed g) := by
  mvcgen [switchStatement]
  all_goals simp_all [placed_map_fst]

@[spec]
theorem handler?_spec : Keeps g (handler? self) (Placed g) := by
  have htarget : Keeps g (bracketed (self .pattern)) (Gives g .pattern) :=
    withFlags_forall_spec (ReadsParts.gives .pattern)
  mvcgen [handler?, htarget, -bracketed_spec]
  all_goals simp_all [isPart_annotated, clear_annotated]

@[spec]
theorem finalizer?_spec : Keeps g (finalizer? self) (Placed g) := by
  mvcgen [finalizer?]
  all_goals simp_all

@[spec]
theorem tryStatement_spec {lo : Nat} (hlo : g.Misses lo) : Keeps g (tryStatement self lo) (Placed g) := by
  mvcgen [tryStatement]
  all_goals simp_all

@[spec]
theorem strayHandler_spec : Keeps g (strayHandler self) (Placed g) := by
  mvcgen [strayHandler]
  all_goals simp_all +zetaDelta

@[spec]
theorem keywordStatement?_jump_spec {lo : Nat} {kind : Kind} (hlo : g.Misses lo)
    (hkind : Placed g kind) :
    Keeps g (keywordStatement?.jump lo kind) (Placed g) := by
  mvcgen [keywordStatement?.jump]
  all_goals simp_all

@[spec]
theorem keywordStatement?_spec {lo : Nat} (hlo : g.Misses lo) :
    Keeps g (keywordStatement? self lo) (Placed g) := by
  mvcgen [keywordStatement?]
  all_goals simp_all

@[spec]
theorem statement_spec (isListed : Bool) :
    Keeps g (statement self isListed) (Placed g) := by
  mvcgen [statement]
  all_goals simp_all +zetaDelta
  all_goals split <;> simp_all

end Localization.Source.Parser
