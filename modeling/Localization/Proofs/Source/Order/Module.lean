import Localization.Proofs.Source.Grammar.Module
import Localization.Proofs.Source.Grammar.Statement
import Localization.Proofs.Source.Order.Expression

/-!
The tree of a source is in the order of the text, but for the parts of loose nodes: a loop `do` has its test
stored in front of its body. Main statement: `tidy_parseFile`.
-/

/-! ## Statements -/

namespace Localization.Source.Parser

variable {self : Goal → Parser Node} [g : Gap] [ReadsParts self] [∀ goal, Reader true (self goal)]
  {base lo : Nat} {marks : List Node}

instance passes_isLetDeclaration : Passes isLetDeclaration := passes_of_keeps fun _ => isLetDeclaration_spec
instance passes_isUsingDeclaration : Passes isUsingDeclaration := passes_looksLike _
instance passes_skipToEnd : Passes skipToEnd := passes_of_keeps fun _ => skipToEnd_spec

/-! ### Variables -/

instance reader_declarator (isLexical needsValue inHead : Bool) :
    Reader true (declarator self isLexical needsValue inHead) := by
  refine ⟨fun base => .here fun lo hlo => .skip fun _ => .refuse ?_⟩
  refine .readKnowing inferInstance keepsOrder_of_pattern fun target hkind => .skip fun _ => .read fun types => ?_
  refine .cursor fun c hc =>
    .regroup ?_ fun _ _ h => (gathered_annotated hkind h : Gathered _ _ _ [annotated target types c.previousEnd])
  refine .skip fun _ => .ite (.read fun value => .node hlo rfl (.refl _)) ?_
  exact .skip fun _ => .skip fun _ => .skip fun _ => .require (.node hlo rfl (.refl _))

instance reader_declarators (keyword : String) (inHead : Bool) : Reader true (declarators self keyword inHead) := by
  have hone : Reader true (declarators.one self keyword inHead) := reader_declarator _ _ _
  refine ⟨fun base => .skip fun _ => .ite (.pure (.refl _)) (.read fun first => .bind ?_ fun rest => ?_)⟩
  · exact reader_many ⟨fun _ => .skip fun _ => .ite (.skip fun _ => .ite .none (.some .only)) .none⟩
  · exact .pure (.refl _)

instance passes_declarationEnd : Passes (declarationEnd self) := by
  have hjoin : Passes (semicolon : Parser Unit) := inferInstance
  unfold declarationEnd
  infer_instance

theorem reader_variableDeclaration (hlo : g.Stops lo) (keyword : String) :
    Reader true (variableDeclaration self lo keyword) :=
  ⟨fun _ => .skip fun _ => .read fun _ => .skip fun _ => .node hlo rfl (.refl _)⟩

theorem reader_usingDeclaration (hlo : g.Stops lo) (inHead : Bool) :
    Reader true (usingDeclaration self lo inHead) :=
  ⟨fun _ => .skip fun _ => .skip fun _ => .read fun _ => .node hlo rfl (.refl _)⟩

/-! ### Declarations of types -/

instance reader_declaredName : Reader true declaredName :=
  ⟨fun _ => .token fun _ hlo => .skip fun _ => .leaf (.binding _) _ hlo rfl (.pure (.refl _))⟩

theorem reader_interfaceRest (hlo : g.Stops lo) : Reader true (interfaceRest self lo) := by
  have hrest (base : Nat) (name : Node) (typeParams parents : List Node) :
      Reads true base ([name] ++ typeParams ++ parents) (do
        let members ← typeMembers self
        node .interface lo (name :: typeParams ++ parents ++ members)) :=
    .read fun members => .node hlo rfl (.refl _)
  refine ⟨fun base => .read fun name => .read fun typeParams => .skip fun _ => .ite (.read fun parents => ?_) ?_⟩
  · exact hrest base name typeParams parents
  · exact .absent (hrest base name typeParams [])

omit [ReadsParts self] in
theorem reader_typeAliasRest (hlo : g.Stops lo) : Reader true (typeAliasRest self lo) := by
  refine ⟨fun base => .read fun name => .read fun typeParams => .skip fun _ => .read fun t => .skip fun _ => ?_⟩
  exact .node hlo rfl (.refl _)

instance reader_enumMemberName : Reader true (enumMemberName self) := by
  refine ⟨fun base => .here fun lo hlo => .skip fun _ => .ite ?_ (.read fun key => ?_)⟩
  · exact .skip fun _ => .skip fun _ => .node hlo rfl (.refl _)
  · exact .regroup (.pure (.refl _)) fun hi _ h => .leaf (h.tidy key (by simp [parts])).lo nofun nofun

instance reader_enumMember : Reader true (enumMember self) :=
  ⟨fun _ => .here fun _ hlo => .read fun _ => .skip fun _ => .optional fun _ => .node hlo rfl (.refl _)⟩

instance reader_enumMembers : Reader true (enumMembers self) := by
  refine ⟨fun base => .bind (reader_many ⟨fun base => ?_⟩) fun members => .skip fun _ => .pure (.refl _)⟩
  refine .skip fun _ => .ite .none (.read fun member => .skip fun _ => .skip fun _ => .ite ?_ (.when ?_))
  · exact .pure (.refl _)
  · exact .pure (.refl _)

omit [ReadsParts self] in
theorem reader_enumRest (hlo : g.Stops lo) : Reader true (enumRest self lo) :=
  ⟨fun _ => .read fun _ => .skip fun _ => .read fun _ => .node hlo rfl (.refl _)⟩

instance reader_moduleBlock : Reader true (moduleBlock self) :=
  ⟨fun _ => .here fun _ hlo => .skip fun _ => .read fun _ => .node hlo rfl (.refl _)⟩

omit [ReadsParts self] in
theorem reader_namespaceRest (hlo : g.Stops lo) : Reader true (namespaceRest self lo) :=
  ⟨fun _ => .read fun _ => .skip fun _ => .read fun _ => .node hlo rfl (.refl _)⟩

omit [ReadsParts self] in
theorem reader_externalModuleRest (hlo : g.Stops lo) : Reader true (externalModuleRest self lo) := by
  refine ⟨fun base => .bind (reader_leaf rfl) fun name => .skip fun _ => .ite ?_ (.skip fun _ => ?_)⟩
  · exact .read fun body => .node hlo rfl (.refl _)
  · exact .node hlo rfl (.refl _)

theorem reads_classDeclaration (hlo : g.Stops lo) : Reads true base marks (classDeclaration self lo marks) :=
  .last (reads_namedClass hlo) fun _ => .refuse (.node hlo rfl (.refl _))

theorem reader_functionDeclaration (hlo : g.Stops lo) (isAsync : Bool) :
    Reader true (functionDeclaration self lo isAsync) :=
  ⟨fun _ => .bind (reader_namedFunction hlo isAsync) fun _ => .refuse (.node hlo rfl (.refl _))⟩

theorem reads_typeDeclaration? (hlo : g.Stops lo) :
    Reads true base marks (typeDeclaration? self lo marks) := by
  refine .skip fun next => .skip fun _ => .ite ?_ (.skip fun _ => .ite ?_ (.skip fun _ => .ite ?_ ?_))
  · exact .skip fun _ => .some (.onlyOf (reader_interfaceRest hlo))
  · exact .skip fun _ => .some (.onlyOf (reader_typeAliasRest hlo))
  · exact .skip fun _ => .some (.onlyOf (reader_namespaceRest hlo))
  refine .skip fun _ => .ite ?_ (.skip fun _ => .ite ?_ (.skip fun _ => .ite ?_ (.skip fun _ => .ite ?_ ?_)))
  · exact .skip fun _ => .some (.onlyOf (reader_externalModuleRest hlo))
  · exact .skip fun _ => .some (.onlyOf (reader_namespaceRest hlo))
  · exact .skip fun _ => .read fun body => .some (.node hlo rfl (List.sublist_append_right _ _))
  · exact .skip fun _ => .some (.onlyOf (reader_enumRest hlo))
  · refine .skip fun _ => .ite ?_ (.skip fun _ => .ite ?_ .none)
    · exact .skip fun _ => .skip fun _ => .some (.onlyOf (reader_enumRest hlo))
    · exact .skip fun _ => .some (reads_classDeclaration hlo)

/-- The parts of a node in the place of the node. -/
theorem gathered_children {lo hi : Nat} {n : Node} (hkind : n.kind.isLoose = false)
    (h : Gathered true lo hi [n]) : Gathered true lo hi n.children := by
  have htidy := h.tidy n List.mem_cons_self
  refine ⟨fun part hpart => htidy.child hpart, fun part hpart s hs => ?_, fun _ => htidy.ordered hkind⟩
  obtain ⟨kind, span, children⟩ := n
  exact h.within _ List.mem_cons_self s (Node.mem_callStarts_mk.mpr (.inr ⟨part, hpart, hs⟩))

theorem reads_declaration? (hlo : g.Stops lo) : Reads true base marks (declaration? self lo marks) := by
  refine .either (reads_typeDeclaration? hlo) (fun d => .pure (.refl _)) (.skip fun next => ?_)
  refine .skip fun _ => .ite ?_ (.skip fun _ => .ite ?_ (.skip fun _ => .ite ?_ (.skip fun _ => .ite ?_ ?_)))
  · exact .some (.onlyOf (reader_functionDeclaration hlo false))
  · exact .skip fun _ => .some (.onlyOf (reader_functionDeclaration hlo true))
  · exact .some (reads_classDeclaration hlo)
  · exact .some (.onlyOf (reader_variableDeclaration hlo "var"))
  refine .skip fun _ => .ite ?_ (.skip fun _ => .ite ?_ (.skip fun _ => .ite (.onlyOf ⟨fun base => ?_⟩) .none))
  · exact .some (.onlyOf (reader_variableDeclaration hlo "const"))
  · exact .some (.onlyOf (reader_variableDeclaration hlo "let"))
  · have hkind : Yields (·.kind.isLoose = false) (usingDeclaration self lo false) :=
      .bind fun _ => .bind fun _ => .bind fun _ => .made fun _ => rfl
    refine .readKnowing (reader_usingDeclaration hlo false) (fun _ hrun => hkind.of_run hrun) fun d hkind => ?_
    exact .regroup (.skip fun _ => .some (.node hlo rfl (.refl _))) fun hi _ h => gathered_children hkind h

theorem reads_anyDeclaration? (hlo : g.Stops lo) : Reads true base marks (anyDeclaration? self lo marks) := by
  refine .skip fun next => .skip fun _ => .ite (.either (.attempt (.skip fun _ => ?_)) ?_ ?_) ?_
  · refine .last (.withFlags (reads_declaration? hlo) _) fun found => ?_
    cases found with
    | none => exact .fail
    | some d => exact .pure (.refl _)
  · exact fun d => .pure (.refl _)
  · exact reads_declaration? hlo
  · exact reads_declaration? hlo

/-! ### Statements -/

omit [ReadsParts self] in
theorem reader_expressionStatement (hlo : g.Stops lo) : Reader true (expressionStatement self lo) := by
  refine ⟨fun base => .here fun inner hinner => .skip fun _ => .skip fun _ => .ite ?_ (.read fun e => ?_)⟩
  · exact .skip fun _ => .skip fun _ => .read fun body => .node hlo rfl (.refl _)
  · refine .skip fun _ => .ite (.skip fun _ => .node hlo rfl (.refl _)) (.cursor fun c hc => ?_)
    split
    · exact .last (reads_binaryRest hinner) fun all => .node hlo rfl (.refl _)
    · exact .fail

instance reader_condition : Reader true (condition self) :=
  ⟨fun _ => .skip fun _ => .read fun _ => .skip fun _ => .pure (.refl _)⟩

instance passes_lacksName : Passes (forHead.lacksName self) := by
  unfold forHead.lacksName
  infer_instance

instance reader_forHead_start : Reader true (forHead.start self) := by
  refine ⟨fun base => .here fun lo hlo => .skip fun _ => .skip fun _ => .skip fun _ => .ite ?_ ?_⟩
  · refine .skip fun keyword => .skip fun _ => .ite (.node hlo rfl (.refl _)) (.read fun items => ?_)
    exact .node hlo rfl (.refl _)
  · exact .skip fun _ => .ite (.onlyOf (reader_usingDeclaration hlo true)) .only

omit [ReadsParts self] in
theorem reads_counting {first : List Node} : Reads true base first (forHead.counting self first) := by
  have hnext (test : List Node) : Reads true base (first ++ test) (do
      expectMark .semicolon
      let next ← if ← isMark .rightParen then pure [] else pure [← self .expression]
      return (Kind.forStatement, first ++ test ++ next)) :=
    .skip fun _ => .skip fun _ => .ite (.absent (.pure (.refl _))) (.read fun next => .pure (.refl _))
  exact .skip fun _ => .skip fun _ => .ite (.absent (hnext [])) (.read fun test => hnext [test])

instance reader_forHead (isAwait : Bool) : Reader true (forHead self isAwait) := by
  refine ⟨fun base => .skip fun _ => .bind (.bracketed ⟨fun base => ?_⟩) fun head => .skip fun _ => .pure (.refl _)⟩
  refine .skip fun _ => .ite reads_counting (.read fun first => .skip fun _ => .ite ?_ (.skip fun _ => .ite ?_ ?_))
  · exact .read fun values => .pure (.refl _)
  · exact .read fun values => .pure (.refl _)
  · exact .ite .fail reads_counting

omit g [ReadsParts self] [∀ goal, Reader true (self goal)] in
theorem yields_forHead (isAwait : Bool) :
    Yields (·.1 ∈ [Kind.forOf, .forIn, .forStatement]) (forHead self isAwait) := by
  have hcounting (first : List Node) :
      Yields (·.1 ∈ [Kind.forOf, .forIn, .forStatement]) (forHead.counting self first) := by
    have hnext (test : List Node) : Yields (·.1 ∈ [Kind.forOf, .forIn, .forStatement]) (do
        expectMark .semicolon
        let next ← if ← isMark .rightParen then pure [] else pure [← self .expression]
        return (Kind.forStatement, first ++ test ++ next)) :=
      .bind fun _ => .bind fun _ => .ite (.pure (by simp)) (.bind fun _ => .pure (by simp))
    exact .bind fun _ => .bind fun _ => .ite (hnext []) (.bind fun test => hnext [test])
  refine .bind fun _ => .passing (.withFlags ?_) fun head hhead => .bind fun _ => .pure hhead
  refine .bind fun _ => .ite (hcounting []) (.bind fun first => .bind fun _ => .ite ?_ (.bind fun _ => .ite ?_ ?_))
  · exact .bind fun _ => .pure (by simp)
  · exact .bind fun _ => .pure (by simp)
  · exact .ite .fail (hcounting [first])

instance reader_switchCase : Reader true (switchCase self) := by
  have hrest (base lo : Nat) (hlo : g.Stops lo) (isDefault : Bool) (test : List Node) : Reads true base test (do
      expectMark .colon
      let body ← many do
        if (← isWord "case") || (← isWord "default") || (← isMark .rightBrace) then return none
        return some (← self (.statement true))
      return (← node .switchCase lo (test ++ body), isDefault)) := by
    refine .skip fun _ => .bind (reader_many ⟨fun base => ?_⟩) fun body => ?_
    · exact .skip fun _ => .skip fun _ => .skip fun _ => .ite .none (.some .only)
    · exact .last (.node hlo rfl (.refl _)) fun n => .pure (.refl _)
  refine ⟨fun base => .here fun lo hlo => .skip fun isDefault => .ite (hrest base lo hlo isDefault []) ?_⟩
  exact .skip fun _ => .read fun test => hrest base lo hlo isDefault [test]

omit [ReadsParts self] in
theorem reader_switchStatement (hlo : g.Stops lo) : Reader true (switchStatement self lo) := by
  have hcases : Reader true (many do
      if ← isMark .rightBrace then return none
      return some (← switchCase self)) := by
    refine reader_many_of_parts ⟨fun base => .skip fun _ => .ite .none ?_⟩ fun items => List.map_eq_flatMap
    exact .read fun case => .pure (.refl _)
  refine ⟨fun base => .skip fun _ => .read fun subject => .skip fun _ => .read fun cases => .skip fun _ => ?_⟩
  exact .refuse (.node hlo rfl (.refl _))

instance reader_handler? : Reader true (handler? self) := by
  have hrest (base lo : Nat) (hlo : g.Stops lo) (param : List Node) : Reads true base param (do
      let inner ← self .block
      return [← node .catchClause lo (param ++ [inner])]) :=
    .read fun inner => .last (.node hlo rfl (.refl _)) fun n => .pure (.refl _)
  refine ⟨fun base => .here fun lo hlo => .skip fun _ => .ite (.skip fun _ => .ite ?_ ?_) (.pure (.refl _))⟩
  · have hpattern {c c' : Cursor} {target : Node} (hc : c.Behind g)
        (hrun : bracketed (self .pattern) c = .ok (target, c')) : target.kind.keepsOrder = true := by
      obtain ⟨after, hpattern, -⟩ := exists_of_withFlags hrun
      exact keepsOrder_of_pattern (hc.withFlags _) hpattern
    refine .readKnowing inferInstance hpattern fun target hkind => .read fun types => .skip fun _ => ?_
    exact .regroup (hrest base lo hlo _) fun hi _ h => gathered_annotated hkind h
  · exact hrest base lo hlo []

instance reader_finalizer? : Reader true (finalizer? self) :=
  ⟨fun _ => .skip fun _ => .ite (.read fun _ => .pure (.refl _)) (.pure (.refl _))⟩

theorem reader_tryStatement (hlo : g.Stops lo) : Reader true (tryStatement self lo) := by
  refine ⟨fun base => .skip fun _ => .read fun body => .read fun handler => .read fun finalizer => ?_⟩
  exact .node hlo rfl (.refl _)

instance reader_strayHandler : Reader true (strayHandler self) :=
  ⟨fun _ => .token fun _ hlo => .skip fun _ => .skip fun _ => .leaf .expressionStatement _ hlo rfl (.pure (.refl _))⟩

theorem reader_keywordStatement? (hlo : g.Stops lo) : Reader true (keywordStatement? self lo) := by
  refine ⟨fun base => .skip fun t => ?_⟩
  have hjump {kind : Kind} (hkind : kind.keepsOrder = true) :
      Reads true base [] (keywordStatement?.jump lo kind) := by
    refine .skip fun _ => .skip fun _ => .ite ?_ ?_
    · exact .skip fun _ => .node hlo hkind (.refl _)
    · exact .skip fun _ => .skip fun _ => .node hlo hkind (.refl _)
  dsimp only
  split
  · refine .skip fun _ => .read fun test => .read fun yes => .skip fun _ => .optional fun no => ?_
    exact .some (.node hlo rfl (.refl _))
  · refine .skip fun _ => .skip fun isAwait => ?_
    refine .readKnowing (reader_forHead isAwait) (fun _ hrun => (yields_forHead isAwait).of_run hrun) ?_
    refine fun (kind, items) hkind => .read fun b => .some (.node hlo ?_ (.refl _))
    exact (by decide : ∀ kind ∈ [Kind.forOf, .forIn, .forStatement], kind.keepsOrder = true) kind hkind
  · exact .skip fun _ => .read fun test => .read fun b => .some (.node hlo rfl (.refl _))
  · refine .skip fun _ => .read fun b => .skip fun _ => .read fun test => .skip fun _ => ?_
    exact .some (.loose hlo rfl nofun (by grind))
  · have hrest (value : List Node) : Reads true base value (do
        semicolon
        return some (← node .returnStatement lo value)) :=
      .skip fun _ => .some (.node hlo rfl (.refl _))
    exact .skip fun _ => .skip fun _ => .ite (hrest []) (.read fun value => hrest [value])
  · exact .some (hjump rfl)
  · exact .some (hjump rfl)
  · exact .skip fun _ => .skip fun _ => .refuse (.read fun value => .skip fun _ => .some (.node hlo rfl (.refl _)))
  · exact .some (.onlyOf (reader_tryStatement hlo))
  · exact .some .only
  · exact .some .only
  · exact .some (.onlyOf (reader_switchStatement hlo))
  · exact .skip fun _ => .read fun object => .read fun b => .some (.node hlo rfl (.refl _))
  · exact .skip fun _ => .skip fun _ => .some (.node hlo rfl (.refl _))
  · exact .some .only
  · exact .skip fun _ => .some (.node hlo rfl (.refl _))
  · exact .none

instance reader_statement (isListed : Bool) : Reader true (statement self isListed) := by
  refine ⟨fun base => .here fun lo hlo => .read fun marks => .here fun inner hinner => ?_⟩
  refine .either (.onlyOf (reader_keywordStatement? hinner)) (fun s => .pure (.refl _)) (.skip fun next => ?_)
  refine .skip fun _ => .skip fun _ => .skip fun _ => .skip fun _ => .skip fun isClass => ?_
  have hstart : g.Stops (if isClass then lo else inner) := by
    split
    · exact hlo
    · exact hinner
  have hexpression : Reads true base ([] ++ parts marks) (expressionStatement self lo) :=
    .onlyOf (reader_expressionStatement hlo)
  refine .ite (.either (reads_anyDeclaration? hstart) ?_ hexpression)
    (.either (reads_typeDeclaration? hstart) ?_ hexpression)
  · exact fun d => .pure (.refl _)
  · exact fun d => .pure (.refl _)

end Localization.Source.Parser

/-! ## Modules -/

namespace Localization.Source.Parser

variable {self : Goal → Parser Node} [g : Gap] {base lo : Nat} {marks : List Node}

instance passes_moduleExportName : Passes moduleExportName := passes_of_keeps fun _ => moduleExportName_spec
instance passes_importSpecifier_typed : Passes importSpecifier.typed :=
  passes_of_keeps fun _ => importSpecifier_typed_spec
instance passes_exportSpecifier : Passes exportSpecifier := passes_of_keeps fun _ => exportSpecifier_spec

/-! ### Imports -/

instance reader_importSpecifier : Reader true importSpecifier := by
  refine ⟨fun base => .here fun lo hlo => .skip fun found => ?_⟩
  cases found with
  | some names => exact .node hlo rfl (.refl _)
  | none =>
      refine .skip fun t => .skip fun imported => .skip fun _ => .ite ?_ (.ite ?_ .fail)
      · exact .skip fun _ => .node hlo rfl (.refl _)
      · exact .node hlo rfl (.refl _)

theorem reader_importEquals? (hlo : g.Stops lo) : Reader true (importEquals? lo) := by
  have hhead : Reader true importEquals?.head :=
    ⟨fun _ => .skip fun _ => .skip fun _ => .read fun _ => .skip fun _ => .pure (.refl _)⟩
  refine ⟨fun base => .bind (.attempt hhead) fun found => ?_⟩
  cases found with
  | none => exact .none
  | some name =>
      have hrest : Reads true base ([] ++ parts (some name)) (do
          semicolon
          return some (← node .importEquals lo [name])) :=
        .skip fun _ => .some (.node hlo rfl (.refl _))
      refine .skip fun _ => .skip fun _ => .ite ?_ (.skip fun _ => hrest)
      refine .skip fun _ => .skip fun _ => .skip fun _ => ?_
      exact .require (.skip fun _ => .skip fun _ => hrest)

instance reader_importNames : Reader true importNames := by
  refine ⟨fun base => .skip fun _ => .ite .only (.here fun lo hlo => .skip fun _ => .skip fun _ => ?_)⟩
  exact .skip fun name => .last (.node hlo rfl (.refl _)) fun n => .pure (.refl _)

instance reader_importClause : Reader true importClause := by
  refine ⟨fun base => .skip fun _ => .skip fun _ => .ite .only (.here fun lo hlo => .skip fun name => ?_)⟩
  refine .last (.node hlo rfl (.refl _)) fun first => .skip fun _ => .ite ?_ (.pure (.refl _))
  exact .read fun names => .pure (.refl _)

instance reader_importedNames : Reader true importedNames :=
  ⟨fun _ => .read fun _ => .skip fun _ => .pure (.refl _)⟩

section

variable [ReadsParts self] [∀ goal, Reader true (self goal)]

instance reader_moduleSource : Reader true (moduleSource self) := by
  refine ⟨fun base => .skip fun t => ?_⟩
  split
  · refine .bind (reader_leaf rfl) fun source => .skip fun _ => .skip fun _ => .skip fun _ => .ite ?_ ?_
    · exact .skip fun _ => .skip fun _ => .read fun attributes => .pure (.refl _)
    · exact .pure (.refl _)
  · exact .fail

theorem reads_finish (hlo : g.Stops lo) (typeOnly : Bool) :
    Reads true base marks (importItem.finish self lo typeOnly marks) :=
  .read fun (_, _) => .skip fun _ => .node hlo rfl (.refl _)

theorem reader_importItem (hlo : g.Stops lo) : Reader true (importItem self lo) := by
  have hnames : Reader true (do
      unless (← takeWord "type") || (← takeWord "defer") || (← takeWord "source") do fail
      importedNames) := by
    refine ⟨fun base => .skip fun _ => .skip fun _ => .skip fun _ => .require ?_⟩
    exact .only
  refine ⟨fun base => .bind (reader_importEquals? hlo) fun found => ?_⟩
  cases found with
  | some n => exact .pure (.refl _)
  | none =>
      refine .skip fun _ => .skip fun t => .ite (reads_finish hlo false) (.skip fun typeOnly => ?_)
      refine .bind (.attempt hnames) fun found => ?_
      cases found with
      | some names => exact reads_finish hlo typeOnly
      | none => exact .read fun names => reads_finish hlo false

/-! ### Exports -/

theorem reader_exportNames (hlo : g.Stops lo) : Reader true (exportNames self lo) := by
  have hall (base : Nat) (named : Bool) : Reads true base [] (do
      expectWord "from"
      let source ← moduleSource self
      semicolon
      node (if named then .exportNamed else .exportAll) lo source.2) := by
    refine .skip fun _ => .read fun source => .skip fun _ => .node hlo ?_ (.refl _)
    split <;> rfl
  refine ⟨fun base => .skip fun _ => .ite (.skip fun named => .ite ?_ (hall base named)) (.skip fun _ => ?_)⟩
  · exact .skip fun _ => hall base named
  · refine .skip fun _ => .skip fun _ => .ite (.read fun source => .skip fun _ => ?_) (.skip fun _ => ?_)
    · exact .node hlo rfl (.refl _)
    · exact .node hlo rfl (.refl _)

theorem reads_exportDefault (hlo : g.Stops lo) : Reads true base marks (exportDefault self lo marks) := by
  refine .read fun more => .require (.here fun declLo hdecl => .skip fun next => .skip fun _ => .skip fun _ => ?_)
  refine .ite ?_ (.skip fun _ => .skip fun _ => .ite ?_ (.skip fun _ => .ite ?_ ?_))
  · refine .skip fun _ => .last (reads_namedClass hdecl) fun class_ => ?_
    exact .last (.node hdecl rfl (.refl _)) fun d => .node hlo rfl (.refl _)
  · refine .skip fun isAsync => .shrink ?_ (List.nil_sublist _)
    refine .bind (reader_namedFunction hdecl isAsync) fun function => ?_
    exact .last (.node hdecl rfl (.refl _)) fun d => .node hlo rfl (.refl _)
  · exact .skip fun _ => .last (.onlyOf (reader_interfaceRest hdecl)) fun d => .node hlo rfl (.refl _)
  · exact .last .only fun e => .skip fun _ => .node hlo rfl (.refl _)

theorem reads_exportItem (hlo : g.Stops lo) : Reads true base marks (exportItem self lo marks) := by
  refine .skip fun _ => .skip fun next => .skip fun _ => .ite (reads_exportDefault hlo) (.skip fun _ => .ite ?_ ?_)
  · exact .last .only fun e => .skip fun _ => .node hlo rfl (.refl _)
  refine .skip fun _ => .ite ?_ (.skip fun _ => .skip fun _ => .ite ?_ (.skip fun _ => .ite ?_ ?_))
  · exact .skip fun _ => .skip fun _ => .skip fun _ => .skip fun _ => .node hlo rfl (List.nil_sublist _)
  · exact .onlyOf (reader_exportNames hlo)
  · exact .skip fun _ => .onlyOf (reader_exportNames hlo)
  · refine .either (.onlyOf (reader_importEquals? hlo)) (fun n => .pure (.refl _)) (.read fun more => ?_)
    refine .require (.here fun declLo hdecl => .last (reads_anyDeclaration? hdecl) fun found => ?_)
    cases found with
    | some d => exact .node hlo rfl (.refl _)
    | none => exact .fail

instance reader_moduleItem : Reader true (moduleItem self) := by
  have hmarks : Reader true (do
      let marks ← decorators self
      unless ← isWord "export" do fail
      return marks) :=
    ⟨fun base => .read fun marks => .skip fun _ => .require (.pure (.refl _))⟩
  refine ⟨fun base => .here fun lo hlo => .skip fun next => .skip fun _ => .ite ?_ (.skip fun _ => .ite ?_ ?_)⟩
  · exact .onlyOf (reader_importItem hlo)
  · exact reads_exportItem hlo
  · refine .skip fun _ => .ite (.bind (.attempt hmarks) fun found => ?_) .only
    cases found with
    | some marks => exact .here fun lo hlo => reads_exportItem hlo
    | none => exact .only

end

instance reader_construct (depth : Nat) (goal : Goal) : Reader true (construct depth goal) := by
  induction depth generalizing goal with
  | zero => exact ⟨fun _ => .fail⟩
  | succ depth ih =>
      have hself : ReadsParts fun goal => construct depth goal := inferInstance
      cases goal with
      | expression => exact reader_sequenceExpression
      | assignment => exact reader_assignmentExpression
      | unary => exact reader_unaryExpression
      | leftHandSide => exact reader_operand true
      | callee => exact reader_operand false
      | element => exact reader_jsxElement
      | pattern => exact reader_bindingPattern
      | type => exact reader_anyType
      | block => exact reader_blockStatement
      | statement isListed => exact reader_statement isListed
      | moduleItem => exact reader_moduleItem

theorem reader_moduleBody (depth : Nat) (hlo : g.Stops 0) : Reader true (moduleBody depth) := by
  refine ⟨fun base => .bind (reader_many ⟨fun base => ?_⟩) fun items => .node hlo rfl (.refl _)⟩
  exact .skip fun _ => .ite .none (.some .only)

theorem tidy_moduleBody {depth : Nat} {c c' : Cursor} {module : Node} (hc : c.Behind g) (hlo : g.Stops 0)
    (hrun : moduleBody depth c = .ok (module, c')) : module.Tidy :=
  ((reader_moduleBody depth hlo).gathered hc hrun).tidy module List.mem_cons_self

omit g in
theorem tidy_parseFile {path : String} {source : List Char} {module : Node}
    (h : parseFile path source = .ok module) : module.Tidy (g := sourceGap source) := by
  obtain ⟨c', hrun⟩ := parseModule_eq_ok_iff.mp h
  exact tidy_moduleBody (g := sourceGap source) (behind_firstCursor _ source) ⟨_, .refl _, rfl⟩ hrun

end Localization.Source.Parser
