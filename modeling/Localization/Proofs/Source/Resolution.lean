import Localization.Proofs.Source.ModuleScope

/-!
Which node binds a name at the end of a way, in the sense of the language: the innermost one on the way
whose scope has the name and holds what the way leads to. Main statement: `binder?_append_cons`.
-/

namespace Localization.Source

/-- What a part of a node is for the scopes of the node. -/
inductive Role where
  | decorator
  | key
  | parameter
  | block
  | switchCase
  | other
  deriving DecidableEq, Repr

namespace Kind

def role : Kind → Role
  | .decorator => .decorator
  | .keyName _ | .keyString _ | .keyNumber | .keyComputed | .privateName _ => .key
  | .parameter => .parameter
  | .block => .block
  | .switchCase => .switchCase
  | _ => .other

/-- Scopes whose names a tree does not tell: the members of an enumeration, those of all namespaces of
one name, and the properties of an object. -/
def hasOpenScope : Kind → Bool
  | .enum | .moduleDeclaration | .withStatement => true
  | _ => false

end Kind

/-- How a way goes on inside a node. -/
structure Turn where
  /-- The part of the node that the way leads to. -/
  first : Option Role
  /-- Whether it goes on to a decorator of that part. -/
  toDecorator : Bool
  deriving DecidableEq, Repr

/-- Decorators and keys of a function, and decorators of its parameters, are outside of its scope. -/
def Turn.leavesFunction (t : Turn) : Bool :=
  t.first == some .decorator || t.first == some .key ||
    (t.first == some .parameter && t.toDecorator)

namespace Node

def turn (way : List Node) : Turn :=
  ⟨way.head?.map fun part => part.kind.role,
    way.tail.head?.any fun part => part.kind.role == .decorator⟩

/-- The names of the `var` declarations in the blocks that are parts of a node. -/
def blockVariables (n : Node) : List String :=
  n.children.flatMap fun part => if part.kind == .block then hoistedNamesAll part.children else []

/-- The names that the cases of a `switch` declare. -/
def caseNames (n : Node) : List String :=
  n.children.flatMap fun part =>
    if part.kind == .switchCase then part.children.flatMap lexicalNames else []

/-- The names in the scope of a node, as far as they are in scope where a way goes on. -/
def scopeAt (n : Node) (t : Turn) : List String :=
  match n.kind with
  | .function _ _ | .arrow _ | .getter | .setter | .constructor | .staticBlock =>
    if t.leavesFunction then []
    else n.parameterNames ++ if t.first = some .block then n.blockVariables else []
  | .functionExpression | .catchClause => boundNamesAll (n.children.take 1)
  | .classExpression | .classDeclaration =>
    if t.toDecorator then [] else boundNamesAll (n.children.take 1)
  | .block | .forStatement | .forIn | .forOf => n.children.flatMap lexicalNames
  | .switchStatement => if t.first = some .switchCase then n.caseNames else []
  | _ => []

/-- Whether a node on a way binds a name at its end. -/
def rebinds (name : String) : List Node → Bool
  | [] => false
  | n :: rest => (n.scopeAt (turn rest)).contains name || rebinds name rest

/-- The innermost node on a way that binds a name at its end, with the rest of the way. -/
def binder? (name : String) : List Node → Option (List Node)
  | [] => none
  | n :: rest =>
    (binder? name rest).or (if (n.scopeAt (turn rest)).contains name then some (n :: rest) else none)

theorem binder?_eq_none_iff {name : String} {way : List Node} :
    binder? name way = none ↔ rebinds name way = false := by
  induction way with
  | nil => simp [binder?, rebinds]
  | cons n rest ih =>
      rw [binder?, rebinds, Option.or_eq_none_iff, ih, Bool.or_eq_false_iff, and_comm]
      refine and_congr_left fun _ => ?_
      cases (n.scopeAt (turn rest)).contains name with
      | true => simp
      | false => simp

theorem length_binder?_le {name : String} {way found : List Node}
    (h : binder? name way = some found) : found.length ≤ way.length := by
  induction way with
  | nil => simp [binder?] at h
  | cons n rest ih =>
      rw [binder?, Option.or_eq_some_iff] at h
      rcases h with hrest | ⟨-, hhere⟩
      · exact Nat.le_succ_of_le (ih hrest)
      · split at hhere
        · exact Nat.le_of_eq (congrArg List.length (Option.some.inj hhere).symm)
        · contradiction

theorem binder?_append {name : String} {way found : List Node} (outer : List Node)
    (h : binder? name way = some found) : binder? name (outer ++ way) = some found := by
  induction outer with
  | nil => exact h
  | cons n rest ih => rw [List.cons_append, binder?, ih, Option.some_or]

/-- A node binds a name at the end of a way exactly if its scope has the name there and no node further
down the way rebinds it. -/
theorem binder?_append_cons {name : String} {outer inside : List Node} {n : Node}
    (hn : name ∈ n.scopeAt (turn inside)) :
    binder? name (outer ++ n :: inside) = some (n :: inside) ↔ rebinds name inside = false := by
  rw [← binder?_eq_none_iff]
  constructor
  · intro h
    cases hinside : binder? name inside with
    | none => rfl
    | some found =>
        -- A binder further down has a shorter rest of the way.
        have hfound : binder? name (n :: inside) = some found := by
          rw [binder?, hinside, Option.some_or]
        rw [binder?_append outer hfound, Option.some.injEq] at h
        have hlength := length_binder?_le hinside
        rw [h, List.length_cons] at hlength
        omega
  · intro h
    have hhere : binder? name (n :: inside) = some (n :: inside) := by
      rw [binder?, h, Option.none_or, if_pos (List.contains_iff_mem.mpr hn)]
    exact binder?_append outer hhere

mutual

/-- All ways down a tree. -/
def ways : Node → List (List Node)
  | mk _ _ children => [] :: waysAll children

def waysAll : List Node → List (List Node)
  | [] => []
  | n :: rest => (ways n).map (n :: ·) ++ waysAll rest

end

theorem waysAll_eq_flatMap (nodes : List Node) :
    waysAll nodes = nodes.flatMap fun n => (ways n).map (n :: ·) := by
  induction nodes with
  | nil => rfl
  | cons n rest ih => rw [waysAll, ih, List.flatMap_cons]

theorem mem_ways_iff {n : Node} {way : List Node} : way ∈ n.ways ↔ n.IsWay way := by
  induction way generalizing n with
  | nil =>
      cases n
      simp [ways, IsWay]
  | cons part rest ih =>
      cases n
      simp [ways, waysAll_eq_flatMap, IsWay, ih]

/-! ### Nodes with the same scopes -/

/-- Two nodes have the same names in their scopes. -/
structure SameNames (n n' : Node) : Prop where
  kind : n.kind = n'.kind
  parameters : n.parameterNames = n'.parameterNames
  first : boundNamesAll (n.children.take 1) = boundNamesAll (n'.children.take 1)
  statements : n.children.flatMap lexicalNames = n'.children.flatMap lexicalNames
  blocks : n.blockVariables = n'.blockVariables
  cases : n.caseNames = n'.caseNames

theorem SameNames.scopeAt_eq {n n' : Node} (h : SameNames n n') (t : Turn) :
    n.scopeAt t = n'.scopeAt t := by
  simp only [scopeAt, h.kind, h.parameters, h.first, h.statements, h.blocks, h.cases]

theorem SameNames.symm {n n' : Node} (h : SameNames n n') : SameNames n' n :=
  ⟨h.kind.symm, h.parameters.symm, h.first.symm, h.statements.symm, h.blocks.symm, h.cases.symm⟩

/-- Two ways bind the same names at their ends. -/
structure SameScopes (way way' : List Node) : Prop where
  turn : Node.turn way = Node.turn way'
  rebinds : ∀ name, Node.rebinds name way = Node.rebinds name way'

theorem SameScopes.trans {way way' way'' : List Node} (h : SameScopes way way')
    (h' : SameScopes way' way'') : SameScopes way way'' :=
  ⟨h.turn.trans h'.turn, fun name => (h.rebinds name).trans (h'.rebinds name)⟩

theorem SameScopes.symm {way way' : List Node} (h : SameScopes way way') : SameScopes way' way :=
  ⟨h.turn.symm, fun name => (h.rebinds name).symm⟩

theorem SameScopes.cons {n n' : Node} {way way' : List Node} (hn : SameNames n n')
    (h : SameScopes way way') : SameScopes (n :: way) (n' :: way') := by
  constructor
  · have hfirst := congrArg Turn.first h.turn
    cases way with
    | nil =>
        cases way' with
        | nil => simp [Node.turn, hn.kind]
        | cons m' rest' => simp [Node.turn] at hfirst
    | cons m rest =>
        cases way' with
        | nil => simp [Node.turn] at hfirst
        | cons m' rest' =>
            simp only [Node.turn, List.head?_cons, Option.map_some, Option.some.injEq] at hfirst
            simp [Node.turn, hn.kind, hfirst]
  · intro name
    rw [Node.rebinds, Node.rebinds, h.turn, h.rebinds name, hn.scopeAt_eq]

end Node

end Localization.Source
