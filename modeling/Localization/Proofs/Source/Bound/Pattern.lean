import Localization.Proofs.Source.Way
import Mathlib.Data.List.Forall2

/-!
What patterns and declarations bind. `Node.Binds` says of a pattern, constructor by constructor, which names
it binds: a property its target and not its key, a default value and a type nothing. `Node.Declares` says the
same of declarations. Main definition: `Node.Formed`, trees in which patterns and declarations have the parts
they should have; in such trees the names that are collected are the names that are bound.
-/

namespace Localization.Source

/-- Kinds of the nodes below which bound names are looked for. -/
def Kind.bindsNames : Kind → Bool
  | .binding _ | .arrayPattern | .objectPattern | .keyPattern | .shorthandPattern | .defaultPattern
  | .restPattern | .parameter => true
  | _ => false

/-- Kinds of the declarations that introduce names of values. -/
def Kind.declaresNames : Kind → Bool
  | .variables _ | .functionDeclaration | .classDeclaration | .enum => true
  | _ => false

namespace Node

variable {n p s : Node} {nodes more : List Node} {names : List String} {name : String}

/-! ## Patterns -/

/-- A node is not looked at for bound names. -/
def IsSilent (n : Node) : Prop :=
  n.kind.bindsNames = false

mutual

/-- A pattern or parameter binds some names, in their order. Keys, default values, type annotations and
decorators stand at their own places and bind none. -/
inductive Binds : Node → List String → Prop where
  | name {name : String} {span : Span} {types : List Node} : Binds (.mk (.binding name) span types) [name]
  | hole {span : Span} : Binds (.leaf .hole span) []
  | array {span : Span} {elements types : List Node} {names : List String} (h : BindsAll elements names)
      (htypes : ∀ t ∈ types, t.IsSilent) : Binds (.mk .arrayPattern span (elements ++ types)) names
  | object {span : Span} {properties types : List Node} {names : List String}
      (h : BindsAll properties names) (htypes : ∀ t ∈ types, t.IsSilent) :
      Binds (.mk .objectPattern span (properties ++ types)) names
  /-- `key: target` -/
  | renamed {span : Span} {key target : Node} {names : List String} (hkey : key.IsSilent)
      (h : Binds target names) : Binds (.mk .keyPattern span [key, target]) names
  /-- `name` or `name = value` -/
  | shorthand {span nameSpan : Span} {name : String} {value : List Node} (hvalue : ∀ v ∈ value, v.IsSilent) :
      Binds (.mk .shorthandPattern span (.leaf (.binding name) nameSpan :: value)) [name]
  /-- `target = value` -/
  | withDefault {span : Span} {target value : Node} {names : List String} (h : Binds target names)
      (hvalue : value.IsSilent) : Binds (.mk .defaultPattern span [target, value]) names
  | rest {span : Span} {target : Node} {types : List Node} {names : List String} (h : Binds target names)
      (htypes : ∀ t ∈ types, t.IsSilent) : Binds (.mk .restPattern span (target :: types)) names
  | parameter {span : Span} {marks : List Node} {target : Node} {names : List String}
      (hmarks : ∀ m ∈ marks, m.IsSilent) (h : Binds target names) :
      Binds (.mk .parameter span (marks ++ [target])) names
  /-- An expression in the place of a parameter -/
  | noParameter {span : Span} : Binds (.leaf .parameter span) []

/-- Several patterns bind some names, one pattern after the other. -/
inductive BindsAll : List Node → List String → Prop where
  | nil : BindsAll [] []
  | cons {n : Node} {rest : List Node} {names more : List String} (h : Binds n names)
      (hrest : BindsAll rest more) : BindsAll (n :: rest) (names ++ more)

end

theorem boundNamesAll_append (nodes more : List Node) :
    boundNamesAll (nodes ++ more) = boundNamesAll nodes ++ boundNamesAll more := by
  induction nodes with
  | nil => rfl
  | cons n rest ih => rw [List.cons_append, boundNamesAll, ih, boundNamesAll, List.append_assoc]

theorem IsSilent.boundNames_eq (h : n.IsSilent) : n.boundNames = [] := by
  obtain ⟨kind, span, children⟩ := n
  change kind.bindsNames = false at h
  rw [boundNames]
  all_goals
    intros
    subst_vars
    cases h

theorem boundNamesAll_of_silent (h : ∀ n ∈ nodes, n.IsSilent) : boundNamesAll nodes = [] := by
  induction nodes with
  | nil => rfl
  | cons n rest ih =>
      obtain ⟨hn, hrest⟩ := List.forall_mem_cons.mp h
      rw [boundNamesAll, hn.boundNames_eq, ih hrest, List.append_nil]

mutual

/-- What is collected from a pattern is what it binds. -/
theorem Binds.boundNames_eq {n : Node} {names : List String} (h : n.Binds names) : n.boundNames = names := by
  match h with
  | .name => rfl
  | .hole => rfl
  | .array h htypes =>
      rw [boundNames, boundNamesAll_append, h.boundNamesAll_eq, boundNamesAll_of_silent htypes,
        List.append_nil]
  | .object h htypes =>
      rw [boundNames, boundNamesAll_append, h.boundNamesAll_eq, boundNamesAll_of_silent htypes,
        List.append_nil]
  | .renamed hkey h =>
      rw [boundNames, boundNamesAll, boundNamesAll, boundNamesAll, hkey.boundNames_eq, h.boundNames_eq,
        List.nil_append, List.append_nil]
  | .shorthand hvalue =>
      rw [boundNames, boundNamesAll, boundNamesAll_of_silent hvalue, List.append_nil]
      rfl
  | .withDefault h hvalue =>
      rw [boundNames, boundNamesAll, boundNamesAll, boundNamesAll, hvalue.boundNames_eq, h.boundNames_eq,
        List.append_nil]
      exact List.append_nil _
  | .rest h htypes =>
      rw [boundNames, boundNamesAll, boundNamesAll_of_silent htypes, h.boundNames_eq, List.append_nil]
  | .parameter hmarks h =>
      rw [boundNames, boundNamesAll_append, boundNamesAll_of_silent hmarks, boundNamesAll, boundNamesAll,
        h.boundNames_eq, List.nil_append, List.append_nil]
  | .noParameter => rfl

theorem BindsAll.boundNamesAll_eq {nodes : List Node} {names : List String} (h : BindsAll nodes names) :
    boundNamesAll nodes = names := by
  match h with
  | .nil => rfl
  | .cons h hrest => rw [boundNamesAll, h.boundNames_eq, hrest.boundNamesAll_eq]

end

theorem exists_bindsAll (h : ∀ n ∈ nodes, ∃ names, n.Binds names) : ∃ names, BindsAll nodes names := by
  induction nodes with
  | nil => exact ⟨[], .nil⟩
  | cons n rest ih =>
      obtain ⟨hn, hrest⟩ := List.forall_mem_cons.mp h
      obtain ⟨names, hnames⟩ := hn
      obtain ⟨more, hmore⟩ := ih hrest
      exact ⟨names ++ more, .cons hnames hmore⟩

/-- Of what is known to be a pattern, the collected names are those that it binds. -/
theorem binds_iff_boundNames_eq (h : ∃ names, n.Binds names) : n.Binds names ↔ n.boundNames = names := by
  obtain ⟨bound, hbound⟩ := h
  constructor
  · exact Binds.boundNames_eq
  · rintro rfl
    rwa [hbound.boundNames_eq]

theorem bindsAll_iff_boundNamesAll_eq (h : ∃ names, BindsAll nodes names) :
    BindsAll nodes names ↔ boundNamesAll nodes = names := by
  obtain ⟨bound, hbound⟩ := h
  constructor
  · exact BindsAll.boundNamesAll_eq
  · rintro rfl
    rwa [hbound.boundNamesAll_eq]

/-! ## Declarations -/

/-- A declarator binds the names of its pattern; its value binds none. -/
inductive BindsAt : Node → List String → Prop where
  | mk {span : Span} {target : Node} {value : List Node} {names : List String} (h : Binds target names) :
      BindsAt (.mk .declarator span (target :: value)) names

/-- A statement declares variables, a function, a class or an enumeration, and with it some names. -/
inductive Declares : Node → List String → Prop where
  | ofVariables {keyword : String} {span : Span} {declarators : List Node} {names : List (List String)}
      (h : List.Forall₂ BindsAt declarators names) :
      Declares (.mk (.variables keyword) span declarators) names.flatten
  | ofFunction {span nameSpan : Span} {name : String} {rest : List Node} :
      Declares (.mk .functionDeclaration span (.leaf (.binding name) nameSpan :: rest)) [name]
  | ofClass {span nameSpan : Span} {name : String} {rest : List Node} :
      Declares (.mk .classDeclaration span (.leaf (.binding name) nameSpan :: rest)) [name]
  | ofEnum {span nameSpan : Span} {name : String} {rest : List Node} :
      Declares (.mk .enum span (.leaf (.binding name) nameSpan :: rest)) [name]

theorem exists_forall₂_bindsAt (h : ∀ d ∈ nodes, ∃ names, d.BindsAt names) :
    ∃ names, List.Forall₂ BindsAt nodes names := by
  induction nodes with
  | nil => exact ⟨[], .nil⟩
  | cons d rest ih =>
      obtain ⟨hd, hrest⟩ := List.forall_mem_cons.mp h
      obtain ⟨names, hnames⟩ := hd
      obtain ⟨more, hmore⟩ := ih hrest
      exact ⟨names :: more, .cons hnames hmore⟩

theorem BindsAt.boundNamesAll_eq (h : n.BindsAt names) : boundNamesAll (n.children.take 1) = names := by
  cases h with
  | mk h =>
      rw [children_mk, List.take_succ_cons, List.take_zero, boundNamesAll, boundNamesAll, h.boundNames_eq,
        List.append_nil]

theorem declaratorNames_of_bindsAt {declarators : List Node} {names : List (List String)}
    (h : List.Forall₂ BindsAt declarators names) : declaratorNames declarators = names.flatten := by
  rw [declaratorNames]
  induction h with
  | nil => rfl
  | cons hfirst hrest ih => rw [List.flatMap_cons, hfirst.boundNamesAll_eq, ih, List.flatten_cons]

theorem Declares.declaredNames_eq (h : s.Declares names) : s.declaredNames = names := by
  cases h with
  | ofVariables h => exact declaratorNames_of_bindsAt h
  | ofFunction => rfl
  | ofClass => rfl
  | ofEnum => rfl

theorem declaredNames_of_not_declaresNames (h : s.kind.declaresNames = false) : s.declaredNames = [] := by
  fun_cases declaredNames s with
  | case1 keyword hkind =>
      rw [hkind] at h
      contradiction
  | case2 hkind | case3 hkind | case4 hkind =>
      rw [hkind] at h
      contradiction
  | case5 => rfl

/-! ## Trees -/

/-- All patterns of a tree are patterns that bind names, and all its declarations declare some. -/
inductive Formed : Node → Prop where
  | mk {kind : Kind} {span : Span} {children : List Node}
      (pattern : kind.bindsNames = true → ∃ names, Binds (.mk kind span children) names)
      (declaration : kind.declaresNames = true → ∃ names, Declares (.mk kind span children) names)
      (parts : ∀ part ∈ children, part.Formed) : Formed (.mk kind span children)

namespace Formed

variable {part : Node}

theorem pattern (h : n.Formed) (hkind : n.kind.bindsNames = true) : ∃ names, n.Binds names := by
  cases h with
  | mk pattern declaration parts => exact pattern hkind

theorem declaration (h : n.Formed) (hkind : n.kind.declaresNames = true) : ∃ names, n.Declares names := by
  cases h with
  | mk pattern declaration parts => exact declaration hkind

theorem child (h : n.Formed) (hpart : part ∈ n.children) : part.Formed := by
  cases h with
  | mk pattern declaration parts => exact parts part hpart

theorem of_mem_walk (h : n.Formed) (hpart : part ∈ n.walk) : part.Formed := by
  obtain ⟨way, hway, rfl⟩ := exists_way_of_mem_walk n part hpart
  clear hpart
  induction way generalizing n with
  | nil => exact h
  | cons first rest ih => exact ih (h.child hway.1) hway.2

theorem mem_declaredNames_iff (h : s.Formed) :
    name ∈ s.declaredNames ↔ ∃ names, s.Declares names ∧ name ∈ names := by
  constructor
  · intro hname
    cases hkind : s.kind.declaresNames with
    | false =>
        rw [declaredNames_of_not_declaresNames hkind] at hname
        contradiction
    | true =>
        obtain ⟨names, hnames⟩ := h.declaration hkind
        exact ⟨names, hnames, hnames.declaredNames_eq ▸ hname⟩
  · rintro ⟨names, hnames, hname⟩
    exact hnames.declaredNames_eq ▸ hname

/-- The names of a list of statements are those that the declarations among them bind. -/
theorem mem_statementNames_iff (h : ∀ s ∈ nodes, s.Formed) :
    name ∈ statementNames nodes ↔ ∃ s ∈ nodes, ∃ names, s.Declares names ∧ name ∈ names := by
  rw [statementNames, List.mem_flatMap]
  exact exists_congr fun s => and_congr_right fun hs => (h s hs).mem_declaredNames_iff

/-- The names of the parameters of a function are those that they bind, one parameter after the other. -/
theorem bindsAll_parameters_iff (h : n.Formed) :
    BindsAll n.parameters names ↔ n.parameterNames = names := by
  refine bindsAll_iff_boundNamesAll_eq (exists_bindsAll fun p hp => ?_)
  obtain ⟨hmem, hkind⟩ := List.mem_filter.mp hp
  exact (h.child hmem).pattern (by rw [beq_iff_eq.mp hkind]; rfl)

end Formed

end Node

end Localization.Source
