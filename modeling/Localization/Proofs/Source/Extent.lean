import Localization.Proofs.Source.Way

/-!
Where the parts of a syntax tree stand in its text. What a walk of a tree finds in nodes whose parts
stand apart stands apart as well. Main statement: `nested_search`.
-/

namespace Localization.Source

namespace Span

/-- Two spans have no byte in common. -/
def Apart (a b : Span) : Prop :=
  a.hi ≤ b.lo ∨ b.hi ≤ a.lo

def Inside (a b : Span) : Prop :=
  b.lo ≤ a.lo ∧ a.hi ≤ b.hi

instance (a b : Span) : Decidable (a.Apart b) :=
  inferInstanceAs (Decidable (_ ∨ _))

instance (a b : Span) : Decidable (a.Inside b) :=
  inferInstanceAs (Decidable (_ ∧ _))

theorem Inside.refl (a : Span) : a.Inside a :=
  ⟨Nat.le_refl _, Nat.le_refl _⟩

theorem Inside.trans {a b c : Span} (h : a.Inside b) (hbc : b.Inside c) : a.Inside c :=
  ⟨Nat.le_trans hbc.1 h.1, Nat.le_trans h.2 hbc.2⟩

theorem Apart.of_inside {a b outer outer' : Span} (h : outer.Apart outer') (ha : a.Inside outer)
    (hb : b.Inside outer') : a.Apart b := by
  rcases h with hbefore | hafter
  · exact .inl (Nat.le_trans ha.2 (Nat.le_trans hbefore hb.1))
  · exact .inr (Nat.le_trans hb.2 (Nat.le_trans hafter ha.1))

/-- Spans that stand apart, each of them inside one of the outer spans. -/
structure Nested (inner outer : List Span) : Prop where
  apart : inner.Pairwise Apart
  inside : ∀ s ∈ inner, ∃ e ∈ outer, s.Inside e

theorem nested_nil (outer : List Span) : Nested [] outer :=
  ⟨.nil, by simp⟩

theorem nested_singleton {s e : Span} {outer : List Span} (h : s.Inside e) (he : e ∈ outer) :
    Nested [s] outer := by
  refine ⟨List.pairwise_singleton _ _, ?_⟩
  intro t ht
  obtain rfl := List.mem_singleton.mp ht
  exact ⟨e, he, h⟩

theorem Nested.widen {inner outer wider : List Span} (h : Nested inner outer)
    (hwider : ∀ s ∈ outer, ∃ e ∈ wider, s.Inside e) : Nested inner wider := by
  refine ⟨h.apart, ?_⟩
  intro s hs
  obtain ⟨e, he, hinside⟩ := h.inside s hs
  obtain ⟨e', he', hinside'⟩ := hwider e he
  exact ⟨e', he', hinside.trans hinside'⟩

theorem Nested.sublist {inner fewer outer : List Span} (h : Nested inner outer)
    (hfewer : fewer.Sublist inner) : Nested fewer outer :=
  ⟨h.apart.sublist hfewer, fun s hs => h.inside s (hfewer.subset hs)⟩

end Span

/-- Whether the span of a kind of node is that of the construct around it. A function and a class take in
the name or key in front of them. -/
def Kind.isFrame : Kind → Bool
  | .function _ _ | .classBody => true
  | _ => false

namespace Node

mutual

/-- The spans that a node takes up: its own, and those of parts that stand outside of it, such as the
decorators in front of an exported class. A frame takes up what its parts do. -/
def extents : Node → List Span
  | mk kind span children =>
    if kind.isFrame then extentsAll children
    else span :: (extentsAll children).filter fun s => !decide (s.Inside span)

def extentsAll : List Node → List Span
  | [] => []
  | n :: rest => extents n ++ extentsAll rest

end

theorem extentsAll_eq_flatMap (nodes : List Node) : extentsAll nodes = nodes.flatMap extents := by
  induction nodes with
  | nil => rfl
  | cons n rest ih => rw [extentsAll, ih, List.flatMap_cons]

theorem span_mem_extents {n : Node} (h : n.kind.isFrame = false) : n.span ∈ n.extents := by
  cases n with
  | mk kind span children =>
      rw [kind_mk] at h
      simp [extents, h]

/-- What a part takes up lies in what the whole takes up. -/
theorem exists_extent_of_part (n : Node) {s : Span} (h : s ∈ extentsAll n.children) :
    ∃ e ∈ n.extents, s.Inside e := by
  cases n with
  | mk kind span children =>
      rw [children_mk] at h
      rw [extents]
      split
      · exact ⟨s, h, .refl s⟩
      · by_cases hinside : s.Inside span
        · exact ⟨span, List.mem_cons_self, hinside⟩
        · refine ⟨s, List.mem_cons_of_mem _ (List.mem_filter.mpr ⟨h, ?_⟩), .refl s⟩
          simp [hinside]

theorem exists_extent_of_mem_walk : ∀ (n part : Node), part ∈ n.walk → ∀ s ∈ part.extents,
    ∃ e ∈ n.extents, s.Inside e
  | .mk kind span children, part, h, s, hs => by
      rcases List.mem_cons.mp h with rfl | hbelow
      · exact ⟨s, hs, .refl s⟩
      · rw [walkAll_eq_flatMap] at hbelow
        obtain ⟨child, hchild, hpart⟩ := List.mem_flatMap.mp hbelow
        obtain ⟨e, he, hinside⟩ := exists_extent_of_mem_walk child part hpart s hs
        have hall : e ∈ extentsAll children := by
          rw [extentsAll_eq_flatMap]
          exact List.mem_flatMap.mpr ⟨child, hchild, he⟩
        obtain ⟨e', he', hinside'⟩ := exists_extent_of_part (.mk kind span children) hall
        exact ⟨e', he', hinside.trans hinside'⟩

/-- What is found apart in each of several nodes that stand apart is apart. -/
theorem nested_flatMap {nodes : List Node} {find : Node → List Span}
    (hapart : (extentsAll nodes).Pairwise Span.Apart)
    (hfind : ∀ n ∈ nodes, Span.Nested (find n) n.extents) :
    Span.Nested (nodes.flatMap find) (extentsAll nodes) := by
  rw [extentsAll_eq_flatMap] at hapart ⊢
  obtain ⟨-, hbetween⟩ := List.pairwise_flatMap.mp hapart
  constructor
  · refine List.pairwise_flatMap.mpr ⟨fun n hn => (hfind n hn).apart, ?_⟩
    refine hbetween.imp_of_mem ?_
    intro n m hn hm hextents s hs t ht
    obtain ⟨e, he, hse⟩ := (hfind n hn).inside s hs
    obtain ⟨e', he', hte⟩ := (hfind m hm).inside t ht
    exact (hextents e he e' he').of_inside hse hte
  · intro s hs
    obtain ⟨n, hn, hfound⟩ := List.mem_flatMap.mp hs
    obtain ⟨e, he, hinside⟩ := (hfind n hn).inside s hfound
    exact ⟨e, List.mem_flatMap.mpr ⟨n, hn, he⟩, hinside⟩

/-- A search that finds at a node at most one span, or else what it finds in the parts of the node, finds
spans that stand apart. What it carries from a node to its parts may change on the way. -/
theorem nested_search {σ : Type} (placed : Node → Prop) (find : σ → Node → List Span)
    (hparts : ∀ n, placed n → ∀ part ∈ n.children, placed part)
    (hapart : ∀ n, placed n → (extentsAll n.children).Pairwise Span.Apart)
    (hfind : ∀ state n, placed n →
      (∃ s, find state n = [s] ∧ ∃ e ∈ n.extents, s.Inside e) ∨ find state n = [] ∨
        ∃ inner, find state n = n.children.flatMap (find inner)) :
    ∀ (n : Node) (state : σ), placed n → Span.Nested (find state n) n.extents
  | .mk kind span children, state, h => by
      rcases hfind state _ h with ⟨s, hfound, e, he, hinside⟩ | hfound | ⟨inner, hfound⟩
      · rw [hfound]
        exact Span.nested_singleton hinside he
      · rw [hfound]
        exact Span.nested_nil _
      · rw [hfound]
        have hchildren : ∀ part ∈ children, Span.Nested (find inner part) part.extents :=
          fun part hpart => nested_search placed find hparts hapart hfind part inner (hparts _ h part hpart)
        exact (nested_flatMap (hapart _ h) hchildren).widen
          fun s hs => exists_extent_of_part (.mk kind span children) hs

end Node

end Localization.Source
