import Localization.Source.Binding

/-!
Ways down a syntax tree, and the names that are in scope at the end of a way.
-/

namespace Localization.Source.Node

@[simp] theorem kind_mk (kind : Kind) (span : Span) (children : List Node) :
    (mk kind span children).kind = kind := rfl

@[simp] theorem span_mk (kind : Kind) (span : Span) (children : List Node) :
    (mk kind span children).span = span := rfl

@[simp] theorem children_mk (kind : Kind) (span : Span) (children : List Node) :
    (mk kind span children).children = children := rfl

/-- A way from a node down to another one: each node on it is a part of the node in front of it. -/
def IsWay : Node → List Node → Prop
  | _, [] => True
  | n, part :: rest => part ∈ n.children ∧ part.IsWay rest

/-- The node at the end of a way. -/
def endOf : Node → List Node → Node
  | n, [] => n
  | _, part :: rest => part.endOf rest

@[simp] theorem endOf_nil (n : Node) : n.endOf [] = n := rfl

@[simp] theorem endOf_cons (n part : Node) (rest : List Node) :
    n.endOf (part :: rest) = part.endOf rest := rfl

@[simp] theorem endOf_append (n : Node) (way more : List Node) :
    n.endOf (way ++ more) = (n.endOf way).endOf more := by
  induction way generalizing n with
  | nil => rfl
  | cons part rest ih => exact ih part

theorem endOf_mem (n : Node) (way : List Node) : n.endOf way ∈ n :: way := by
  induction way generalizing n with
  | nil => exact List.mem_cons_self
  | cons part rest ih => exact List.mem_cons_of_mem n (ih part)

theorem isWay_append {n : Node} {way more : List Node} (h : n.IsWay way)
    (hmore : (n.endOf way).IsWay more) : n.IsWay (way ++ more) := by
  induction way generalizing n with
  | nil => exact hmore
  | cons part rest ih => exact ⟨h.1, ih h.2 hmore⟩

theorem walkAll_eq_flatMap (nodes : List Node) : walkAll nodes = nodes.flatMap walk := by
  induction nodes with
  | nil => rfl
  | cons n rest ih => rw [walkAll, ih, List.flatMap_cons]

theorem mem_walk_self (n : Node) : n ∈ n.walk := by
  cases n
  simp [walk]

theorem mem_walk_of_child {n child part : Node} (hchild : child ∈ n.children)
    (hpart : part ∈ child.walk) : part ∈ n.walk := by
  cases n with
  | mk kind span children =>
      refine List.mem_cons_of_mem _ ?_
      rw [walkAll_eq_flatMap]
      exact List.mem_flatMap.mpr ⟨child, hchild, hpart⟩

theorem mem_walk_cases {n part : Node} (h : part ∈ n.walk) :
    part = n ∨ ∃ child ∈ n.children, part ∈ child.walk := by
  cases n with
  | mk kind span children =>
      rcases List.mem_cons.mp h with rfl | hbelow
      · exact .inl rfl
      · rw [walkAll_eq_flatMap] at hbelow
        exact .inr (List.mem_flatMap.mp hbelow)

theorem mem_walk_of_isWay {n part : Node} {way : List Node} (h : n.IsWay way)
    (hpart : part ∈ n :: way) : part ∈ n.walk := by
  induction way generalizing n with
  | nil =>
      obtain rfl := List.mem_singleton.mp hpart
      exact mem_walk_self part
  | cons first rest ih =>
      rcases List.mem_cons.mp hpart with rfl | hbelow
      · exact mem_walk_self part
      · exact mem_walk_of_child h.1 (ih h.2 hbelow)

theorem exists_way_of_mem_walk : ∀ (n part : Node), part ∈ n.walk →
    ∃ way, n.IsWay way ∧ n.endOf way = part
  | .mk kind span children, part, h => by
      rcases List.mem_cons.mp h with rfl | hbelow
      · exact ⟨[], trivial, rfl⟩
      · rw [walkAll_eq_flatMap] at hbelow
        obtain ⟨child, hchild, hpart⟩ := List.mem_flatMap.mp hbelow
        obtain ⟨way, hway, hend⟩ := exists_way_of_mem_walk child part hpart
        exact ⟨child :: way, ⟨hchild, hway⟩, hend⟩

theorem mem_walk_trans {n m part : Node} (hm : m ∈ n.walk) (hpart : part ∈ m.walk) :
    part ∈ n.walk := by
  obtain ⟨way, hway, rfl⟩ := exists_way_of_mem_walk n m hm
  obtain ⟨more, hmore, rfl⟩ := exists_way_of_mem_walk _ part hpart
  rw [← endOf_append]
  exact mem_walk_of_isWay (isWay_append hway hmore) (endOf_mem n (way ++ more))

theorem exists_way_unparenthesized (n : Node) :
    ∃ way, n.IsWay way ∧ n.endOf way = n.unparenthesized := by
  fun_induction Node.unparenthesized n with
  | case1 span inner ih =>
      obtain ⟨way, hway, hend⟩ := ih
      exact ⟨inner :: way, ⟨by simp, hway⟩, hend⟩
  | case2 n => exact ⟨[], trivial, rfl⟩

theorem unparenthesized_of_kind {n : Node} (h : n.kind ≠ .paren) : n.unparenthesized = n := by
  unfold Node.unparenthesized
  split
  · simp at h
  · rfl

/-- Whether a way into a node leads through a decorator of the node or of one of its parameters. What
stands in a decorator is outside the scope of the parameters. -/
def throughDecorator : List Node → Bool
  | [] => false
  | part :: rest =>
    part.kind == .decorator ||
      (part.kind == .parameter && rest.head?.any fun inner => inner.kind == .decorator)

/-- The names that a node binds for what a way into it leads to: those declared in a block, or those of
the parameters of a function. -/
def namesOn (n : Node) (way : List Node) : List String :=
  (if n.kind == .block then statementNames n.children else []) ++
    if throughDecorator way then [] else n.parameterNames

/-- A name is bound at the end of a way by one of the nodes on it. -/
def BoundOn (name : String) : List Node → Prop
  | [] => False
  | n :: rest => name ∈ n.namesOn rest ∨ BoundOn name rest

/-- A way leads through a decorator out of the scope of a parameter with a name. -/
def LeavesScopeOf (name : String) : List Node → Prop
  | [] => False
  | n :: rest =>
    (throughDecorator rest = true ∧ name ∈ n.parameterNames) ∨ LeavesScopeOf name rest

theorem boundOn_from_end {name : String} {n : Node} {way more : List Node}
    (h : BoundOn name (n.endOf way :: more)) : BoundOn name (n :: (way ++ more)) := by
  induction way generalizing n with
  | nil => exact h
  | cons part rest ih => exact .inr (ih h)

/-- The parameters of a function bind their names on a way unless it leads through a decorator. -/
theorem boundOn_or_leavesScopeOf {name : String} {n : Node} (way : List Node)
    (h : name ∈ n.parameterNames) : BoundOn name (n :: way) ∨ LeavesScopeOf name (n :: way) := by
  cases hway : throughDecorator way with
  | true => exact .inr (.inl ⟨hway, h⟩)
  | false =>
      refine .inl (.inl ?_)
      simp [namesOn, hway, h]

theorem boundOn_of_parameter {name : String} {n : Node} {way : List Node}
    (hway : throughDecorator way = false) (h : name ∈ n.parameterNames) : BoundOn name (n :: way) := by
  refine .inl ?_
  simp [namesOn, hway, h]

theorem boundOn_of_block {name : String} {n : Node} (way : List Node) (hn : n.kind = .block)
    (h : name ∈ statementNames n.children) : BoundOn name (n :: way) := by
  refine .inl ?_
  simp [namesOn, hn, h]

/-- Whether a node binds a name for any way into it. -/
def binds (name : String) (n : Node) : Bool :=
  (statementNames n.children).contains name || n.parameterNames.contains name

theorem exists_binds_of_boundOn {name : String} {way : List Node} (h : BoundOn name way) :
    ∃ n ∈ way, n.binds name = true := by
  induction way with
  | nil => exact h.elim
  | cons n rest ih =>
      rcases h with hhere | hbelow
      · refine ⟨n, List.mem_cons_self, ?_⟩
        rcases List.mem_append.mp hhere with hdeclared | hparameter
        · split at hdeclared
          · simp [binds, hdeclared]
          · simp at hdeclared
        · split at hparameter
          · simp at hparameter
          · simp [binds, hparameter]
      · obtain ⟨part, hpart, hbinds⟩ := ih hbelow
        exact ⟨part, List.mem_cons_of_mem n hpart, hbinds⟩

theorem exists_binds_of_leavesScopeOf {name : String} {way : List Node}
    (h : LeavesScopeOf name way) : ∃ n ∈ way, n.binds name = true := by
  induction way with
  | nil => exact h.elim
  | cons n rest ih =>
      rcases h with ⟨-, hparameter⟩ | hbelow
      · exact ⟨n, List.mem_cons_self, by simp [binds, hparameter]⟩
      · obtain ⟨part, hpart, hbinds⟩ := ih hbelow
        exact ⟨part, List.mem_cons_of_mem n hpart, hbinds⟩

/-- Where no node of a tree binds a name, no way through the tree does. -/
theorem not_binds_on_way {name : String} {n : Node} {way : List Node}
    (h : (n.walk.any (binds name)) = false) (hway : n.IsWay way) :
    ¬ BoundOn name way ∧ ¬ LeavesScopeOf name way := by
  have hall : ∀ part ∈ way, part.binds name = false := by
    intro part hpart
    have hmem := mem_walk_of_isWay hway (List.mem_cons_of_mem n hpart)
    simpa using List.any_eq_false.mp h part hmem
  constructor
  · intro hbound
    obtain ⟨part, hpart, hbinds⟩ := exists_binds_of_boundOn hbound
    rw [hall part hpart] at hbinds
    contradiction
  · intro hleaves
    obtain ⟨part, hpart, hbinds⟩ := exists_binds_of_leavesScopeOf hleaves
    rw [hall part hpart] at hbinds
    contradiction

def isTypeSpecifier (specifier : Node) : Bool :=
  match specifier.kind with
  | .importNamed _ _ typeOnly => typeOnly
  | _ => false

/-- The names that the items of a module import as types only. -/
def typeNames (items : List Node) : List String :=
  items.flatMap fun item =>
    match item.kind with
    | .importDeclaration typeOnly _ =>
      item.children.flatMap fun s => if typeOnly || s.isTypeSpecifier then importedNames s else []
    | _ => []

/-- The names that the items of a module declare or import as values. -/
def valueNames (items : List Node) : List String :=
  items.flatMap fun item =>
    match item.kind with
    | .importDeclaration typeOnly _ =>
      item.children.flatMap fun s => if typeOnly || s.isTypeSpecifier then [] else importedNames s
    | _ => itemNames item

theorem mem_moduleNames {name : String} {items : List Node} (h : name ∈ moduleNames items) :
    name ∈ valueNames items ∨ name ∈ typeNames items := by
  obtain ⟨item, hitem, hname⟩ := List.mem_flatMap.mp h
  cases hkind : item.kind with
  | importDeclaration typeOnly source =>
      simp only [itemNames, hkind] at hname
      obtain ⟨specifier, hspecifier, hlocal⟩ := List.mem_flatMap.mp hname
      cases htype : typeOnly || specifier.isTypeSpecifier with
      | true =>
          refine .inr (List.mem_flatMap.mpr ⟨item, hitem, ?_⟩)
          simp only [hkind]
          refine List.mem_flatMap.mpr ⟨specifier, hspecifier, ?_⟩
          rwa [if_pos htype]
      | false =>
          refine .inl (List.mem_flatMap.mpr ⟨item, hitem, ?_⟩)
          simp only [hkind]
          refine List.mem_flatMap.mpr ⟨specifier, hspecifier, ?_⟩
          rwa [if_neg (by simp [htype])]
  | _ =>
      refine .inl (List.mem_flatMap.mpr ⟨item, hitem, ?_⟩)
      simpa only [hkind] using hname

end Localization.Source.Node
