import Localization.Proofs.Source.Way

/-!
The names that the scope of a function or of a module has in the sense of the language: those that its top
level declares, and those of the `var` declarations anywhere in its statements. Trees that differ only in where
they stand and inside of functions declare the same names. Main statements: `mem_scopeNames_iff`, which compares
the names with those that are declared directly, and `moduleScopeNames_congr`.
-/

/-! ## Names in the scope of a function -/

namespace Localization.Source

/-- Whether the `var` declarations in a node stay inside it. -/
def Kind.isVariableScope : Kind → Bool
  | .functionDeclaration | .functionExpression | .function _ _ | .arrow _ | .getter | .setter
  | .constructor | .staticBlock | .moduleDeclaration => true
  | _ => false

namespace Node

mutual

/-- The names of the `var` declarations in a node that belong to the scope around it. -/
def hoistedNames : Node → List String
  | mk kind _ children =>
    if kind.isVariableScope then []
    else if kind == .variables "var" then declaratorNames children
    else hoistedNamesAll children

def hoistedNamesAll : List Node → List String
  | [] => []
  | n :: rest => hoistedNames n ++ hoistedNamesAll rest

end

theorem hoistedNamesAll_eq_flatMap (nodes : List Node) :
    hoistedNamesAll nodes = nodes.flatMap hoistedNames := by
  induction nodes with
  | nil => rfl
  | cons n rest ih => rw [hoistedNamesAll, ih, List.flatMap_cons]

/-- The names that a statement declares for the block around it, apart from `var`. -/
def lexicalNames (n : Node) : List String :=
  match n.kind with
  | .variables keyword => if keyword = "var" then [] else declaratorNames n.children
  | .usingDeclaration => declaratorNames n.children
  | .functionDeclaration | .classDeclaration | .enum | .moduleDeclaration | .importEquals =>
    boundNamesAll (n.children.take 1)
  | _ => []

/-- The names that statements declare for the function around them. -/
def scopeNames (statements : List Node) : List String :=
  statements.flatMap fun s => s.lexicalNames ++ s.hoistedNames

/-- The names in the scope of a function: those of its parameters and those that its statements
declare. -/
def functionScopeNames (f : Node) : List String :=
  f.parameterNames ++
    match f.body? with
    | some body => if body.kind == .block then scopeNames body.children else []
    | none => []

/-- The names that a statement declares for the function around it without being a declaration that is
looked at: those of `using` and of namespaces, and those of `var` inside another statement. -/
def unlistedNames (n : Node) : List String :=
  (match n.kind with
    | .usingDeclaration | .moduleDeclaration | .importEquals => n.lexicalNames
    | _ => []) ++
  if n.kind == .variables "var" then [] else n.hoistedNames

theorem hoistedNames_of_kind {n : Node} (h : n.kind = .variables "var") :
    n.hoistedNames = declaratorNames n.children := by
  cases n
  simp only [kind_mk] at h
  subst h
  rfl

theorem mem_lexicalNames_or_hoistedNames_iff {name : String} {n : Node} :
    name ∈ n.lexicalNames ∨ name ∈ n.hoistedNames ↔
      name ∈ n.declaredNames ∨ name ∈ n.unlistedNames := by
  by_cases hvar : n.kind = .variables "var"
  · simp [lexicalNames, unlistedNames, declaredNames, hvar, hoistedNames_of_kind hvar]
  · have hother : (n.kind == .variables "var") = false := by simpa using hvar
    cases hkind : n.kind with
    | «variables» keyword =>
        have hkeyword : keyword ≠ "var" := by
          rintro rfl
          exact hvar hkind
        simp [lexicalNames, unlistedNames, declaredNames, hkind, hkeyword]
    | _ => simp [lexicalNames, unlistedNames, declaredNames, hkind]

/-- The scope of a function has the names that its statements declare directly, and those that they
declare in another way. -/
theorem mem_scopeNames_iff {name : String} {statements : List Node} :
    name ∈ scopeNames statements ↔
      name ∈ statementNames statements ∨ ∃ s ∈ statements, name ∈ s.unlistedNames := by
  simp only [scopeNames, statementNames, List.mem_flatMap, List.mem_append,
    mem_lexicalNames_or_hoistedNames_iff, and_or_left, exists_or]

end Node

end Localization.Source

/-! ## Names in the scope of a module -/

namespace Localization.Source.Node

/-- The names that an item declares for its module, apart from `var`. Those of imports count, also when
they are types only. -/
def itemLexicalNames (item : Node) : List String :=
  match item.kind with
  | .importDeclaration _ _ => item.children.flatMap importedNames
  | .exportDeclaration => item.children.flatMap lexicalNames
  | .exportDefaultDeclaration =>
    item.children.flatMap fun d =>
      match d.kind with
      | .functionExpression | .classExpression => boundNamesAll (d.children.take 1)
      | _ => []
  | _ => item.lexicalNames

/-- The names that an item adds to the scope of its module. -/
def itemScopeNames (item : Node) : List String :=
  item.itemLexicalNames ++ item.hoistedNames

/-- The names in the scope of a module, each as often as it is declared. -/
def moduleScopeNames (items : List Node) : List String :=
  items.flatMap itemScopeNames

/-- The names that a node declares by itself: those of its declarators, or those that its first part
binds. -/
def ownNames (n : Node) : List String :=
  match n.kind with
  | .variables _ | .usingDeclaration => declaratorNames n.children
  | .arrow _ => []
  | _ => boundNamesAll (n.children.take 1)

mutual

/-- Two trees have the same kinds in the same arrangement, apart from what is inside of functions, and
their nodes declare the same names by themselves. -/
def DeclareAlike : Node → Node → Prop
  | mk kind span children, mk kind' span' children' =>
    kind = kind' ∧ (mk kind span children).ownNames = (mk kind' span' children').ownNames ∧
      (kind.isVariableScope = true ∨ DeclareAlikeAll children children')

def DeclareAlikeAll : List Node → List Node → Prop
  | [], [] => True
  | n :: rest, n' :: rest' => DeclareAlike n n' ∧ DeclareAlikeAll rest rest'
  | _, _ => False

end

theorem declareAlike_iff {n n' : Node} : DeclareAlike n n' ↔ n.kind = n'.kind ∧
    n.ownNames = n'.ownNames ∧
    (n.kind.isVariableScope = true ∨ DeclareAlikeAll n.children n'.children) := by
  cases n
  cases n'
  rw [DeclareAlike]
  rfl

theorem DeclareAlike.kind {n n' : Node} (h : DeclareAlike n n') : n.kind = n'.kind :=
  (declareAlike_iff.mp h).1

theorem DeclareAlike.own {n n' : Node} (h : DeclareAlike n n') : n.ownNames = n'.ownNames :=
  (declareAlike_iff.mp h).2.1

theorem DeclareAlike.parts {n n' : Node} (h : DeclareAlike n n')
    (hscope : n.kind.isVariableScope = false) : DeclareAlikeAll n.children n'.children := by
  rcases (declareAlike_iff.mp h).2.2 with hfunction | hparts
  · rw [hscope] at hfunction
    contradiction
  · exact hparts

mutual

theorem DeclareAlike.refl : ∀ n : Node, DeclareAlike n n
  | .mk _ _ children => declareAlike_iff.mpr ⟨rfl, rfl, .inr (declareAlikeAll_refl children)⟩

theorem declareAlikeAll_refl : ∀ nodes : List Node, DeclareAlikeAll nodes nodes
  | [] => trivial
  | n :: rest => ⟨.refl n, declareAlikeAll_refl rest⟩

end

/-- What is the same for nodes that declare alike is the same for lists of them. -/
theorem map_congr_of_declareAlikeAll {α : Type} {f : Node → α}
    (hf : ∀ {n n' : Node}, DeclareAlike n n' → f n = f n') {nodes nodes' : List Node}
    (h : DeclareAlikeAll nodes nodes') : nodes.map f = nodes'.map f := by
  induction nodes generalizing nodes' with
  | nil =>
      cases nodes' with
      | nil => rfl
      | cons n' rest' => exact h.elim
  | cons n rest ih =>
      cases nodes' with
      | nil => exact h.elim
      | cons n' rest' => rw [List.map_cons, List.map_cons, hf h.1, ih h.2]

theorem flatMap_congr_of_declareAlikeAll {α : Type} {f : Node → List α}
    (hf : ∀ {n n' : Node}, DeclareAlike n n' → f n = f n') {nodes nodes' : List Node}
    (h : DeclareAlikeAll nodes nodes') : nodes.flatMap f = nodes'.flatMap f := by
  rw [List.flatMap_def, List.flatMap_def, map_congr_of_declareAlikeAll hf h]

theorem any_congr_of_declareAlikeAll {p : Node → Bool}
    (hp : ∀ {n n' : Node}, DeclareAlike n n' → p n = p n') {nodes nodes' : List Node}
    (h : DeclareAlikeAll nodes nodes') : nodes.any p = nodes'.any p := by
  have hmap := congrArg (List.any · id) (map_congr_of_declareAlikeAll hp h)
  simpa only [List.any_map, Function.id_comp] using hmap

theorem boundNames_of_isVariableScope {n : Node} (h : n.kind.isVariableScope = true) :
    n.boundNames = [] := by
  cases n with
  | mk kind span children =>
      simp only [kind_mk, Kind.isVariableScope] at h
      split at h
      all_goals first
        | rfl
        | contradiction

mutual

theorem boundNames_congr : ∀ {n n' : Node}, DeclareAlike n n' → n.boundNames = n'.boundNames
  | .mk kind span children, .mk kind' span' children', h => by
      have hkind := h.kind
      simp only [kind_mk] at hkind
      subst hkind
      cases hscope : kind.isVariableScope with
      | true =>
          rw [boundNames_of_isVariableScope (n := .mk kind span children) hscope,
            boundNames_of_isVariableScope (n := .mk kind span' children') hscope]
      | false =>
          have hparts := boundNamesAll_congr (h.parts hscope)
          simp only [children_mk] at hparts
          simp only [boundNames, hparts]

theorem boundNamesAll_congr : ∀ {nodes nodes' : List Node}, DeclareAlikeAll nodes nodes' →
    boundNamesAll nodes = boundNamesAll nodes'
  | [], [], _ => rfl
  | n :: rest, n' :: rest', h => by
      rw [boundNamesAll, boundNamesAll, boundNames_congr h.1, boundNamesAll_congr h.2]

end

theorem hoistedNames_eq_ownNames {n : Node} (h : n.kind = .variables "var") :
    n.hoistedNames = n.ownNames := by
  rw [hoistedNames_of_kind h, ownNames, h]

mutual

theorem hoistedNames_congr : ∀ {n n' : Node}, DeclareAlike n n' →
    n.hoistedNames = n'.hoistedNames
  | .mk kind span children, .mk kind' span' children', h => by
      have hkind := h.kind
      simp only [kind_mk] at hkind
      subst hkind
      by_cases hvar : kind = .variables "var"
      · rw [hoistedNames_eq_ownNames (n := .mk kind span children) hvar,
          hoistedNames_eq_ownNames (n := .mk kind span' children') hvar, h.own]
      · have hother : (kind == .variables "var") = false := by simpa using hvar
        rw [hoistedNames, hoistedNames]
        split
        · rfl
        · next hscope =>
            have hparts := hoistedNamesAll_congr (h.parts (Bool.eq_false_iff.mpr hscope))
            simp only [children_mk] at hparts
            simp only [hother, Bool.false_eq_true, if_false, hparts]

theorem hoistedNamesAll_congr : ∀ {nodes nodes' : List Node}, DeclareAlikeAll nodes nodes' →
    hoistedNamesAll nodes = hoistedNamesAll nodes'
  | [], [], _ => rfl
  | n :: rest, n' :: rest', h => by
      rw [hoistedNamesAll, hoistedNamesAll, hoistedNames_congr h.1, hoistedNamesAll_congr h.2]

end

/-- What a statement declares for the block around it, it declares by itself. -/
theorem lexicalNames_congr {n n' : Node} (h : DeclareAlike n n') :
    n.lexicalNames = n'.lexicalNames := by
  have hown := h.own
  simp only [ownNames, ← h.kind] at hown
  simp only [lexicalNames, ← h.kind]
  cases hkind : n.kind with
  | «variables» keyword =>
      simp only [hkind] at hown
      simp only [hown]
  | usingDeclaration => simpa only [hkind] using hown
  | functionDeclaration => simpa only [hkind] using hown
  | classDeclaration => simpa only [hkind] using hown
  | enum => simpa only [hkind] using hown
  | moduleDeclaration => simpa only [hkind] using hown
  | importEquals => simpa only [hkind] using hown
  | _ => rfl

theorem importedNames_congr {n n' : Node} (h : DeclareAlike n n') :
    n.importedNames = n'.importedNames := by
  simp only [importedNames, h.kind]

theorem itemLexicalNames_congr {n n' : Node} (h : DeclareAlike n n') :
    n.itemLexicalNames = n'.itemLexicalNames := by
  simp only [itemLexicalNames, ← h.kind]
  split
  · next hkind =>
      exact flatMap_congr_of_declareAlikeAll importedNames_congr (h.parts (by rw [hkind]; rfl))
  · next hkind =>
      exact flatMap_congr_of_declareAlikeAll lexicalNames_congr (h.parts (by rw [hkind]; rfl))
  · next hkind =>
      refine flatMap_congr_of_declareAlikeAll ?_ (h.parts (by rw [hkind]; rfl))
      intro d d' hd
      have hown := hd.own
      simp only [ownNames, ← hd.kind] at hown
      simp only [← hd.kind]
      split
      · next hfunction => simpa only [hfunction] using hown
      · next hclass => simpa only [hclass] using hown
      · rfl
  · exact lexicalNames_congr h

/-- Modules that declare alike have the same names in scope. -/
theorem moduleScopeNames_congr {items items' : List Node} (h : DeclareAlikeAll items items') :
    moduleScopeNames items = moduleScopeNames items' := by
  refine flatMap_congr_of_declareAlikeAll ?_ h
  intro n n' hn
  rw [itemScopeNames, itemLexicalNames_congr hn, hoistedNames_congr hn, itemScopeNames]

end Localization.Source.Node
