import Localization.Proofs.Source.Way

/-!
Where texts and functions stand in a syntax tree: a text has no parts, text between tags is a part of an
element or of a fragment, what names a function has it as its last part and no call as another one, and a
statement of an expression and an argument have one part.
-/

namespace Localization.Source

namespace Kind

/-- A string, a key that is a string, or text between tags. -/
@[simp]
def isText : Kind → Bool
  | .string _ | .keyString _ | .jsxString _ | .jsxText _ => true
  | _ => false

@[simp]
def isElementText : Kind → Bool
  | .jsxText _ => true
  | _ => false

theorem isElementText_of_isText {kind : Kind} (h : kind.isText = false) :
    kind.isElementText = false := by
  cases kind with
  | jsxText value => exact h
  | _ => rfl

@[simp]
def isElement : Kind → Bool
  | .jsxElement | .jsxFragment => true
  | _ => false

/-- A function with its name, if it has one. -/
@[simp]
def isNamedFunction : Kind → Bool
  | .functionDeclaration | .functionExpression => true
  | _ => false

@[simp]
def isFunction : Kind → Bool
  | .function _ _ => true
  | _ => false

/-- A statement or an argument that consists of an expression. -/
@[simp]
def isWrapper : Kind → Bool
  | .expressionStatement | .argument _ => true
  | _ => false

@[simp]
def isCall : Kind → Bool
  | .call => true
  | _ => false

end Kind

namespace Node

inductive InPlace : Node → Prop where
  | mk {kind : Kind} {span : Span} {children : List Node}
      (leaf : kind.isText = true → children = [])
      (inElement : kind.isElement = false → ∀ part ∈ children, part.kind.isElementText = false)
      (named : kind.isNamedFunction = true → (∀ part ∈ children, part.kind.isCall = false) ∧
        ∀ f ∈ children.getLast?, f.kind.isFunction = true)
      (single : kind.isWrapper = true → children.length ≤ 1)
      (below : ∀ part ∈ children, part.InPlace) : InPlace (.mk kind span children)

/-- A node that may stand outside of elements. -/
structure IsPart (n : Node) : Prop where
  inPlace : n.InPlace
  notText : n.kind.isElementText = false

namespace InPlace

variable {n part : Node}

theorem children_eq_nil (h : n.InPlace) (hn : n.kind.isText = true) : n.children = [] := by
  cases h with
  | mk leaf inElement named single below => exact leaf hn

theorem child (h : n.InPlace) (hpart : part ∈ n.children) : part.InPlace := by
  cases h with
  | mk leaf inElement named single below => exact below part hpart

theorem isPart_child (h : n.InPlace) (hn : n.kind.isElement = false)
    (hpart : part ∈ n.children) : part.IsPart := by
  cases h with
  | mk leaf inElement named single below => exact ⟨below part hpart, inElement hn part hpart⟩

theorem isCall_child (h : n.InPlace) (hn : n.kind.isNamedFunction = true)
    (hpart : part ∈ n.children) : part.kind.isCall = false := by
  cases h with
  | mk leaf inElement named single below => exact (named hn).1 part hpart

theorem isFunction_last (h : n.InPlace) (hn : n.kind.isNamedFunction = true)
    (hlast : n.children.getLast? = some part) : part.kind.isFunction = true := by
  cases h with
  | mk leaf inElement named single below => exact (named hn).2 part hlast

theorem length_children_le (h : n.InPlace) (hn : n.kind.isWrapper = true) :
    n.children.length ≤ 1 := by
  cases h with
  | mk leaf inElement named single below => exact single hn

theorem endOf {way : List Node} (h : n.InPlace) (hway : n.IsWay way) :
    (n.endOf way).InPlace := by
  induction way generalizing n with
  | nil => exact h
  | cons first rest ih => exact ih (h.child hway.1) hway.2

theorem of_mem_walk (h : n.InPlace) (hpart : part ∈ n.walk) : part.InPlace := by
  obtain ⟨way, hway, rfl⟩ := exists_way_of_mem_walk n part hpart
  exact h.endOf hway

end InPlace

@[simp]
theorem kind_leaf (kind : Kind) (span : Span) : (Node.leaf kind span).kind = kind := rfl

@[simp]
theorem isPart_leaf {kind : Kind} {span : Span} :
    (Node.leaf kind span).IsPart ↔ kind.isElementText = false := by
  constructor
  · exact fun h => h.notText
  · intro h
    exact ⟨.mk (fun _ => rfl) (fun _ _ hpart => absurd hpart List.not_mem_nil)
      (fun _ => ⟨fun _ hpart => absurd hpart List.not_mem_nil, nofun⟩) (fun _ => Nat.zero_le 1)
      (fun _ hpart => absurd hpart List.not_mem_nil), h⟩

theorem isPart_mk {kind : Kind} {span : Span} {children : List Node} (h : kind.isText = false)
    (hfunction : kind.isNamedFunction = true → (∀ part ∈ children, part.kind.isCall = false) ∧
      ∀ f ∈ children.getLast?, f.kind.isFunction = true)
    (hsingle : kind.isWrapper = true → children.length ≤ 1)
    (hparts : ∀ part ∈ children, part.IsPart) : (Node.mk kind span children).IsPart where
  inPlace := .mk (fun htext => absurd htext (Bool.eq_false_iff.mp h))
    (fun _ part hpart => (hparts part hpart).notText) hfunction hsingle
    fun part hpart => (hparts part hpart).inPlace
  notText := Kind.isElementText_of_isText h

end Node

end Localization.Source
