import Localization.Proofs.Source.Bound.Expression
import Localization.Proofs.Results
import Localization.Proofs.Source.Order.Module

/-!
Declarations, statements and modules are formed, so that the names collected from a module are those that its
patterns and declarations bind.
-/

-- The instance of a long reader is built from those of all its steps.
set_option synthInstance.maxSize 1000000

namespace Localization.Source.Parser

variable {self : Goal → Parser Node} {lo : Nat} {marks : List Node}

/-! ## Declarations as nodes -/

section

variable {target n : Node} {declarators items : List Node}

instance fills_declaratorNode [htarget : Suits .target target] [hitems : Suits .plain items] :
    Fills .declarator (node .declarator lo (target :: items)) := by
  obtain ⟨hformed, -, names, hnames⟩ := suits_node_iff.mp htarget
  refine fills_node_of fun span => suits_node_iff.mpr ⟨?_, names, .mk hnames⟩
  exact (suits_mk_of_plainKind inferInstance inferInstance).formed

instance fills_variables {keyword : String} [h : Suits .declarator declarators] :
    Fills .plain (node (.variables keyword) lo declarators) := by
  obtain ⟨names, hnames⟩ := Node.exists_forall₂_bindsAt fun d hd => (h.takes d hd).2
  exact fills_node_of fun span =>
    suits_node_iff.mpr ⟨formed_of_declares (.ofVariables hnames) rfl inferInstance, rfl⟩

/-- The declaration of a name. -/
theorem suits_declaration {kind : Kind} {span : Span} (hkind : kind.bindsNames = false)
    (hdeclares : ∀ name nameSpan, Node.Declares (.mk kind span (.leaf (.binding name) nameSpan :: items)) [name])
    (hn : Suits .name n) (hitems : Suits .any items) : Suits .plain (Node.mk kind span (n :: items)) := by
  obtain ⟨-, name, nameSpan, rfl⟩ := suits_node_iff.mp hn
  exact suits_node_iff.mpr ⟨formed_of_declares (hdeclares name nameSpan) hkind inferInstance, hkind⟩

instance fills_functionNode [hn : Suits .name n] [hitems : Suits .any items] :
    Fills .plain (node .functionDeclaration lo (n :: items)) :=
  fills_node_of fun _ => suits_declaration rfl (fun _ _ => .ofFunction) hn hitems

instance fills_classNode [hn : Suits .name n] [hitems : Suits .any items] :
    Fills .plain (node .classDeclaration lo (n :: items)) :=
  fills_node_of fun _ => suits_declaration rfl (fun _ _ => .ofClass) hn hitems

instance fills_enumNode [hn : Suits .name n] [hitems : Suits .any items] :
    Fills .plain (node .enum lo (n :: items)) :=
  fills_node_of fun _ => suits_declaration rfl (fun _ _ => .ofEnum) hn hitems

end

/-! ## Declarations -/

variable [FillsSlots self]

instance fills_declarator {isLexical needsValue inHead : Bool} :
    Fills .declarator (declarator self isLexical needsValue inHead) := by
  unfold declarator
  infer_instance

instance fills_declarators_one {keyword : String} {inHead : Bool} :
    Fills .declarator (declarators.one self keyword inHead) := by
  unfold declarators.one
  infer_instance

instance fills_declarators {keyword : String} {inHead : Bool} :
    Fills .declarator (declarators self keyword inHead) := by
  unfold declarators
  infer_instance

instance fills_variableDeclaration {keyword : String} :
    Fills .plain (variableDeclaration self lo keyword) := by
  unfold variableDeclaration
  infer_instance

instance fills_usingDeclaration {inHead : Bool} : Fills .plain (usingDeclaration self lo inHead) := by
  unfold usingDeclaration
  infer_instance

instance fills_declaredName : Fills .name declaredName := by
  unfold declaredName
  infer_instance

instance fills_interfaceRest : Fills .plain (interfaceRest self lo) := by
  unfold interfaceRest
  infer_instance

instance fills_typeAliasRest : Fills .plain (typeAliasRest self lo) := by
  unfold typeAliasRest
  infer_instance

instance fills_enumMemberName : Fills .plain (enumMemberName self) := by
  unfold enumMemberName
  infer_instance

instance fills_enumMember : Fills .plain (enumMember self) := by
  unfold enumMember
  infer_instance

instance fills_enumMembers : Fills .plain (enumMembers self) := by
  unfold enumMembers
  infer_instance

instance fills_enumRest : Fills .plain (enumRest self lo) := by
  unfold enumRest
  infer_instance

instance fills_moduleBlock : Fills .plain (moduleBlock self) := by
  unfold moduleBlock
  infer_instance

instance fills_namespaceRest : Fills .plain (namespaceRest self lo) := by
  unfold namespaceRest
  infer_instance

instance fills_externalModuleRest : Fills .plain (externalModuleRest self lo) := by
  unfold externalModuleRest
  infer_instance

/-- What functions and classes have as their name: one, or none. -/
inductive AtMostName : List Node → Prop where
  | none : AtMostName []
  | one (name : String) (span : Span) : AtMostName [Node.leaf (.binding name) span]

omit [FillsSlots self] in
theorem yields_namedFunction {isAsync : Bool} : Yields (AtMostName ·.1) (namedFunction self lo isAsync) := by
  have hrest (isGenerator : Bool) (name : List Node) (h : AtMostName name) : Yields (AtMostName ·.1) (do
      let f ← functionRest self lo [] isAsync isGenerator
      return (name, f)) :=
    .bind fun f => .pure h
  refine .bind fun _ => .bind fun isGenerator => .bind fun _ => .ite ?_ (hrest isGenerator [] .none)
  exact .bind fun t => .bind fun text => hrest isGenerator _ (.one text t.span)

omit [FillsSlots self] in
theorem yields_namedClass : Yields (AtMostName ·.1) (namedClass self lo marks) := by
  have hrest (name : List Node) (h : AtMostName name) : Yields (AtMostName ·.1) (do
      let c ← classTail self lo marks
      return (name, c)) :=
    .bind fun c => .pure h
  refine .bind fun _ => .bind fun _ => .bind fun _ => .ite ?_ (hrest [] .none)
  exact .bind fun t => .bind fun text => hrest _ (.one text t.span)

omit [FillsSlots self] in
/-- A declaration has the name that was read, which may not be missing. -/
theorem fills_named {kind : Kind} {x : Parser (List Node × Node)} (hx : Fills .any x)
    (hname : Yields (AtMostName ·.1) x)
    (h : ∀ n items, Suits .name n → Suits .any items → Fills .plain (node kind lo (n :: items))) :
    Fills .plain (do
      let (name, body) ← x
      if name.isEmpty then fail
      node kind lo (name ++ [body])) := by
  constructor
  intro c n c' hrun
  obtain ⟨⟨name, body⟩, c₁, hread, hrun⟩ := bind_eq_ok.mp hrun
  have hbody := (hx.of_run hread).snd
  cases hname.of_run hread with
  | none => contradiction
  | one text span =>
      have hitems : Suits .any [body] := inferInstance
      exact (h _ _ suits_name_leaf hitems).of_run hrun

instance fills_classDeclaration [Suits .any marks] : Fills .plain (classDeclaration self lo marks) :=
  fills_named fills_namedClass yields_namedClass fun _ _ _ _ => fills_classNode

instance fills_functionDeclaration {isAsync : Bool} : Fills .plain (functionDeclaration self lo isAsync) :=
  fills_named fills_namedFunction yields_namedFunction fun _ _ _ _ => fills_functionNode

instance fills_typeDeclaration? [Suits .any marks] : Fills .plain (typeDeclaration? self lo marks) := by
  unfold typeDeclaration?
  infer_instance

instance fills_declaration? [Suits .any marks] : Fills .plain (declaration? self lo marks) := by
  unfold declaration?
  infer_instance

instance fills_anyDeclaration? [Suits .any marks] : Fills .plain (anyDeclaration? self lo marks) := by
  unfold anyDeclaration?
  infer_instance

/-! ## Statements -/

instance fills_expressionStatement : Fills .plain (expressionStatement self lo) := by
  refine .skip fun inner => .skip fun _ => .skip fun _ => .ite inferInstance ?_
  refine .read (inferInstance : Fills .plain _) fun e he => .skip fun _ => .ite inferInstance (.skip fun c => ?_)
  split <;> infer_instance

instance fills_condition : Fills .plain (condition self) := by
  unfold condition
  infer_instance

instance fills_forHead_start : Fills .plain (forHead.start self) := by
  unfold forHead.start
  infer_instance

instance fills_forHead_counting {first : List Node} [Suits .any first] :
    Fills .any (forHead.counting self first) := by
  unfold forHead.counting
  infer_instance

instance fills_forHead {isAwait : Bool} : Fills .any (forHead self isAwait) := by
  unfold forHead
  infer_instance

instance fills_switchCase : Fills .plain (switchCase self) := by
  unfold switchCase
  infer_instance

instance fills_switchStatement : Fills .plain (switchStatement self lo) := by
  unfold switchStatement
  infer_instance

instance fills_handler? : Fills .plain (handler? self) := by
  unfold handler?
  infer_instance

instance fills_finalizer? : Fills .plain (finalizer? self) := by
  unfold finalizer?
  infer_instance

instance fills_tryStatement : Fills .plain (tryStatement self lo) := by
  unfold tryStatement
  infer_instance

instance fills_strayHandler : Fills .plain (strayHandler self) := by
  unfold strayHandler
  infer_instance

instance fills_keywordStatement?_jump {kind : Kind} [PlainKind kind] :
    Fills .plain (keywordStatement?.jump lo kind) := by
  unfold keywordStatement?.jump
  infer_instance

instance fills_keywordStatement? : Fills .plain (keywordStatement? self lo) := by
  refine .skip fun t => ?_
  split
  case h_2 =>
    refine .skip fun _ => .skip fun isAwait => ⟨fun hrun => ?_⟩
    obtain ⟨⟨kind, items⟩, c₁, hhead, hrun⟩ := bind_eq_ok.mp hrun
    have hitems := (fills_forHead.of_run hhead).snd
    have hplain : PlainKind kind :=
      ⟨(by decide : ∀ kind ∈ [Kind.forOf, .forIn, .forStatement], kind.isPlain = true) kind
        ((yields_forHead isAwait).of_run hhead)⟩
    have hrest : Fills .plain (do
        let b ← self (.statement false)
        return some (← node kind lo (items ++ [b]))) := inferInstance
    exact hrest.of_run hrun
  all_goals infer_instance

instance fills_statement {isListed : Bool} : Fills .plain (statement self isListed) := by
  unfold statement
  infer_instance

/-! ## Imports and exports -/

instance fills_importSpecifier : Fills .plain importSpecifier := by
  refine .skip fun lo => .skip fun found => ?_
  cases found <;> infer_instance

instance fills_moduleSource : Fills .plain (moduleSource self) := by
  refine .skip fun t => ?_
  split <;> infer_instance

instance fills_importEquals?_head : Fills .name importEquals?.head := by
  unfold importEquals?.head
  infer_instance

instance fills_importEquals? : Fills .plain (importEquals? lo) := by
  unfold importEquals?
  infer_instance

instance fills_importNames : Fills .plain importNames := by
  unfold importNames
  infer_instance

instance fills_importClause : Fills .plain importClause := by
  unfold importClause
  infer_instance

instance fills_importedNames : Fills .plain importedNames := by
  unfold importedNames
  infer_instance

instance fills_importItem_finish {typeOnly : Bool} {names : List Node} [Suits .any names] :
    Fills .plain (importItem.finish self lo typeOnly names) := by
  unfold importItem.finish
  infer_instance

instance fills_importItem : Fills .plain (importItem self lo) := by
  unfold importItem
  infer_instance

instance fills_exportNames : Fills .plain (exportNames self lo) := by
  unfold exportNames
  infer_instance

instance fills_exportDefault [Suits .any marks] : Fills .plain (exportDefault self lo marks) := by
  unfold exportDefault
  infer_instance

instance fills_exportItem [Suits .any marks] : Fills .plain (exportItem self lo marks) := by
  unfold exportItem
  infer_instance

instance fills_moduleItem : Fills .plain (moduleItem self) := by
  unfold moduleItem
  infer_instance

/-! ## Modules -/

instance fillsSlots_construct (depth : Nat) : FillsSlots (construct depth) := by
  induction depth with
  | zero => exact ⟨fills_fail, fun _ _ => fills_fail⟩
  | succ depth ih =>
      have hself : FillsSlots fun goal => construct depth goal := ih
      refine ⟨fills_bindingPattern, fun goal hgoal => ?_⟩
      cases goal with
      | expression => exact fills_sequenceExpression
      | assignment => exact fills_assignmentExpression
      | unary => exact fills_unaryExpression
      | leftHandSide => exact fills_operand
      | callee => exact fills_operand
      | element => exact fills_jsxElement
      | pattern => contradiction
      | type => exact fills_anyType
      | block => exact fills_blockStatement
      | statement isListed => exact fills_statement
      | moduleItem => exact fills_moduleItem

theorem fills_moduleBody (depth : Nat) : Fills .plain (moduleBody depth) := by
  unfold moduleBody
  infer_instance

theorem formed_parseFile {path : String} {source : List Char} {module : Node}
    (h : parseFile path source = .ok module) : module.Formed := by
  obtain ⟨c', hrun⟩ := parseModule_eq_ok_iff.mp h
  exact ((fills_moduleBody _).of_run hrun).formed

end Localization.Source.Parser

namespace Localization.Source

open Node (BindsAll statementNames)

/-- In every source that is read, what is collected from a pattern or parameter are the names that it binds,
in their order: no property name, nothing of a default value and nothing of a computed key. The names of a
list of statements are those that the variables, functions, classes and enumerations among them declare. -/
theorem collected_names_are_bound {path : String} {source : List Char} {module : Node}
    (h : parseFile path source = .ok module) :
    (∀ p ∈ module.walk, p.kind.bindsNames = true → ∀ names, p.Binds names ↔ p.boundNames = names) ∧
    (∀ f ∈ module.walk, ∀ names, BindsAll f.parameters names ↔ f.parameterNames = names) ∧
    ∀ statements : List Node, (∀ s ∈ statements, s ∈ module.walk) → ∀ name,
      name ∈ statementNames statements ↔ ∃ s ∈ statements, ∃ names, s.Declares names ∧ name ∈ names := by
  have hformed := Parser.formed_parseFile h
  refine ⟨fun p hp hkind names => ?_, fun f hf names => ?_, fun statements hstatements name => ?_⟩
  · exact Node.binds_iff_boundNames_eq ((hformed.of_mem_walk hp).pattern hkind)
  · exact (hformed.of_mem_walk hf).bindsAll_parameters_iff
  · exact Node.Formed.mem_statementNames_iff fun s hs => hformed.of_mem_walk (hstatements s hs)

/-- A function whose parameter has a pattern inside a pattern, a default value, a computed key, a hole and
rests, and whose body declares further names. -/
def nestedPatterns : List Char :=
  ("function f(\x7b a: \x7b b \x7d, c = k, [k]: [, l = c, ...m], ...d \x7d) " ++
    "\x7b const \x7b x: y = b \x7d = d; class A \x7b\x7d enum B \x7b C \x7d if (y) \x7b let z; \x7d \x7d").toList

/-- The parameter binds five names, and the statements of the body declare three. -/
theorem collected_names_are_bound_of_nestedPatterns :
    ∃ module, parseFile "a.ts" nestedPatterns = .ok module ∧
      (∃ f ∈ module.walk, BindsAll f.parameters ["b", "c", "l", "m", "d"]) ∧
      (∃ p ∈ module.walk, p.kind = .objectPattern ∧ p.Binds ["y"]) ∧
      ∃ n ∈ module.walk, (∃ s ∈ n.children, ∃ names, s.Declares names ∧ "A" ∈ names) ∧
        ¬ ∃ s ∈ n.children, ∃ names, s.Declares names ∧ "z" ∈ names := by
  obtain ⟨module, hmodule, hfacts⟩ := exists_ok_of_any (x := parseFile "a.ts" nestedPatterns)
    (p := fun module =>
      module.walk.any (·.parameterNames == ["b", "c", "l", "m", "d"]) &&
      module.walk.any (fun p => p.kind == .objectPattern && p.boundNames == ["y"]) &&
      module.walk.any fun n => statementNames n.children == ["y", "A", "B"]) (by decide +kernel)
  simp only [Bool.and_eq_true, List.any_eq_true, beq_iff_eq] at hfacts
  obtain ⟨⟨⟨f, hf, hparameters⟩, p, hp, hkind, hnames⟩, n, hn, hstatements⟩ := hfacts
  obtain ⟨hpatterns, hfunctions, hdeclared⟩ := collected_names_are_bound hmodule
  have hchildren : ∀ s ∈ n.children, s ∈ module.walk := fun s hs =>
    Node.mem_walk_trans hn (Node.mem_walk_of_child hs (Node.mem_walk_self s))
  refine ⟨module, hmodule, ⟨f, hf, (hfunctions f hf _).mpr hparameters⟩,
    ⟨p, hp, hkind, (hpatterns p hp (by rw [hkind]; rfl) _).mpr hnames⟩, n, hn, ?_, ?_⟩
  · rw [← hdeclared _ hchildren, hstatements]
    decide
  · rw [← hdeclared _ hchildren, hstatements]
    decide

end Localization.Source
