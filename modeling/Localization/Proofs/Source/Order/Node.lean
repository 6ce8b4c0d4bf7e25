import Localization.Proofs.Source.Gap

/-!
Where the calls of a tree begin, and which nodes hold their parts in the order of the text. Main definition:
`Node.Tidy`, what is known of every node that a reader gives.
-/

namespace Localization.Source

/-- Kinds of nodes whose parts may be stored in another order than the text has them in. -/
def Kind.isLoose : Kind → Bool
  | .function _ _ | .arrow _ | .constructor | .classMethod | .classProperty | .classBody | .signature
  | .call | .chainCall | .newCall | .jsxOpening | .typeAssertion | .doWhileStatement => true
  | _ => false

/-- Kinds of nodes whose parts are stored in the order of the text, and that need no further care. -/
def Kind.keepsOrder : Kind → Bool
  | .block | .templateText => false
  | kind => !kind.isLoose

namespace Kind

variable {kind : Kind}

theorem isLoose_of_keepsOrder (h : kind.keepsOrder = true) : kind.isLoose = false := by
  unfold keepsOrder at h
  split at h
  · contradiction
  · contradiction
  · simpa using h

theorem ne_block_of_keepsOrder (h : kind.keepsOrder = true) : kind ≠ .block := by
  rintro rfl
  contradiction

theorem ne_templateText_of_keepsOrder (h : kind.keepsOrder = true) : kind ≠ .templateText := by
  rintro rfl
  contradiction

theorem ne_call_of_isLoose (h : kind.isLoose = false) : kind ≠ .call := by
  rintro rfl
  contradiction

end Kind

namespace Node

/-- Where the calls in a tree begin, in the order of a walk. -/
def callStarts (n : Node) : List Nat :=
  (n.walk.filter (·.kind == .call)).map (·.span.lo)

theorem callStarts_mk (kind : Kind) (span : Span) (children : List Node) :
    callStarts (.mk kind span children) =
      (if kind = .call then [span.lo] else []) ++ children.flatMap callStarts := by
  have hbelow : ((walkAll children).filter (·.kind == .call)).map (·.span.lo) =
      children.flatMap callStarts := by
    rw [walkAll_eq_flatMap, List.filter_flatMap, List.map_flatMap]
    rfl
  rw [callStarts, walk, ← hbelow]
  by_cases hkind : kind = .call
  · simp [hkind, Node.kind, Node.span]
  · simp [hkind, Node.kind]

theorem mem_callStarts_mk {kind : Kind} {span : Span} {children : List Node} {s : Nat} :
    s ∈ callStarts (.mk kind span children) ↔
      (kind = .call ∧ s = span.lo) ∨ ∃ part ∈ children, s ∈ part.callStarts := by
  rw [callStarts_mk, List.mem_append, List.mem_flatMap]
  by_cases hkind : kind = .call <;> simp [hkind]

@[simp]
theorem callStarts_leaf {kind : Kind} (h : kind ≠ .call) (span : Span) :
    (Node.leaf kind span).callStarts = [] := by
  rw [leaf, callStarts_mk, if_neg h]
  rfl

/-- The calls of one node begin in front of those of another. -/
def Before (a b : Node) : Prop :=
  ∀ s ∈ a.callStarts, ∀ t ∈ b.callStarts, s ≤ t

variable [g : Gap]

/-- A node that begins where a reader may come to, as do its parts. A call begins in front of the calls in it,
and the parts of a node that is not loose are in order. -/
inductive Tidy : Node → Prop where
  | mk {kind : Kind} {span : Span} {children : List Node} (lo : g.Stops span.lo)
      (opening : kind = .block → ∃ rest, g.Admits ⟨'\x7b' :: rest, span.lo⟩)
      (text : kind = .templateText → children = [])
      (first : kind = .call → ∀ part ∈ children, ∀ s ∈ part.callStarts, span.lo ≤ s)
      (ordered : kind.isLoose = false → children.Pairwise Before)
      (parts : ∀ part ∈ children, part.Tidy) : Tidy (.mk kind span children)

namespace Tidy

variable {n part : Node}

theorem lo (h : n.Tidy) : g.Stops n.span.lo := by
  cases h with
  | mk lo opening text first ordered parts => exact lo

theorem opening (h : n.Tidy) (hkind : n.kind = .block) : ∃ rest, g.Admits ⟨'\x7b' :: rest, n.span.lo⟩ := by
  cases h with
  | mk lo opening text first ordered parts => exact opening hkind

theorem text (h : n.Tidy) (hkind : n.kind = .templateText) : n.children = [] := by
  cases h with
  | mk lo opening text first ordered parts => exact text hkind

theorem first (h : n.Tidy) (hkind : n.kind = .call) (hpart : part ∈ n.children) :
    ∀ s ∈ part.callStarts, n.span.lo ≤ s := by
  cases h with
  | mk lo opening text first ordered parts => exact first hkind part hpart

theorem ordered (h : n.Tidy) (hkind : n.kind.isLoose = false) : n.children.Pairwise Before := by
  cases h with
  | mk lo opening text first ordered parts => exact ordered hkind

theorem child (h : n.Tidy) (hpart : part ∈ n.children) : part.Tidy := by
  cases h with
  | mk lo opening text first ordered parts => exact parts part hpart

theorem of_mem_walk (h : n.Tidy) (hpart : part ∈ n.walk) : part.Tidy := by
  obtain ⟨way, hway, rfl⟩ := exists_way_of_mem_walk n part hpart
  clear hpart
  induction way generalizing n with
  | nil => exact h
  | cons first rest ih => exact ih (h.child hway.1) hway.2

end Tidy

theorem tidy_leaf {kind : Kind} {span : Span} (hlo : g.Stops span.lo) (hblock : kind ≠ .block) :
    (Node.leaf kind span).Tidy :=
  .mk hlo (fun hkind => absurd hkind hblock) (fun _ => rfl) nofun (fun _ => .nil) nofun

end Node

/-- Nodes that were read between two bytes: their calls begin there. They are in the order of the text where
`ordered` says so. -/
structure Gathered [g : Gap] (ordered : Bool) (lo hi : Nat) (nodes : List Node) : Prop where
  tidy : ∀ n ∈ nodes, n.Tidy
  within : ∀ n ∈ nodes, ∀ s ∈ n.callStarts, lo ≤ s ∧ s ≤ hi
  inOrder : ordered = true → nodes.Pairwise Node.Before

namespace Gathered

variable [g : Gap] {o : Bool} {lo mid hi : Nat} {nodes more : List Node} {n : Node}

theorem nil : Gathered o lo hi [] :=
  ⟨nofun, nofun, fun _ => .nil⟩

theorem singleton (htidy : n.Tidy) (hwithin : ∀ s ∈ n.callStarts, lo ≤ s ∧ s ≤ hi) :
    Gathered o lo hi [n] := by
  refine ⟨?_, ?_, fun _ => List.pairwise_singleton _ _⟩
  · intro m hm
    rwa [List.mem_singleton.mp hm]
  · intro m hm
    rwa [List.mem_singleton.mp hm]

theorem leaf {kind : Kind} {span : Span} (hstops : g.Stops span.lo) (hblock : kind ≠ .block)
    (hcall : kind ≠ .call) : Gathered o lo hi [Node.leaf kind span] := by
  refine .singleton (Node.tidy_leaf hstops hblock) fun s hs => ?_
  rw [Node.callStarts_leaf hcall] at hs
  contradiction

/-- Nodes without calls are in any order. -/
theorem of_callFree (h : ∀ n ∈ nodes, n.Tidy ∧ n.callStarts = []) : Gathered o lo hi nodes := by
  have hnone {n : Node} (hn : n ∈ nodes) {s : Nat} : s ∉ n.callStarts := by
    rw [(h n hn).2]
    exact List.not_mem_nil
  refine ⟨fun n hn => (h n hn).1, fun n hn s hs => absurd hs (hnone hn), fun _ => ?_⟩
  exact List.pairwise_of_forall_mem_list fun a ha b _ s hs => absurd hs (hnone ha)

theorem widen (h : Gathered o lo mid nodes) (hhi : mid ≤ hi) : Gathered o lo hi nodes :=
  ⟨h.tidy, fun n hn s hs => ⟨(h.within n hn s hs).1, Nat.le_trans (h.within n hn s hs).2 hhi⟩, h.inOrder⟩

theorem lower (h : Gathered o mid hi nodes) (hlo : lo ≤ mid) : Gathered o lo hi nodes :=
  ⟨h.tidy, fun n hn s hs => ⟨Nat.le_trans hlo (h.within n hn s hs).1, (h.within n hn s hs).2⟩, h.inOrder⟩

theorem loosen (h : Gathered o lo hi nodes) : Gathered false lo hi nodes :=
  ⟨h.tidy, h.within, nofun⟩

theorem sublist (h : Gathered o lo hi nodes) (hmore : more.Sublist nodes) : Gathered o lo hi more :=
  ⟨fun n hn => h.tidy n (hmore.subset hn), fun n hn => h.within n (hmore.subset hn),
    fun ho => (h.inOrder ho).sublist hmore⟩

theorem subset (h : Gathered o lo hi nodes) (hmore : more ⊆ nodes) : Gathered false lo hi more :=
  ⟨fun n hn => h.tidy n (hmore hn), fun n hn => h.within n (hmore hn), nofun⟩

theorem append (h : Gathered o lo mid nodes) (hmore : Gathered o mid hi more) (hmid : lo ≤ mid)
    (hhi : mid ≤ hi) : Gathered o lo hi (nodes ++ more) := by
  refine ⟨List.forall_mem_append.mpr ⟨h.tidy, hmore.tidy⟩,
    List.forall_mem_append.mpr ⟨(h.widen hhi).within, (hmore.lower hmid).within⟩, fun ho => ?_⟩
  refine List.pairwise_append.mpr ⟨h.inOrder ho, hmore.inOrder ho, fun a ha b hb s hs t ht => ?_⟩
  exact Nat.le_trans (h.within a ha s hs).2 (hmore.within b hb t ht).1

/-- A node over what was read, which does not begin in front of it if it is a call. -/
theorem node {kind : Kind} {span : Span} (h : Gathered o lo hi nodes) (hstops : g.Stops span.lo)
    (hopening : kind = .block → ∃ rest, g.Admits ⟨'\x7b' :: rest, span.lo⟩)
    (htext : kind = .templateText → nodes = []) (hcall : kind = .call → span.lo = lo) (hhi : lo ≤ hi)
    (hordered : kind.isLoose = false → o = true) :
    Gathered true lo hi [.mk kind span nodes] := by
  refine .singleton ?_ fun s hs => ?_
  · refine .mk hstops hopening htext (fun hkind part hpart s hs => ?_)
      (fun hkind => h.inOrder (hordered hkind)) h.tidy
    rw [hcall hkind]
    exact (h.within part hpart s hs).1
  · rcases Node.mem_callStarts_mk.mp hs with ⟨hkind, rfl⟩ | ⟨part, hpart, hs⟩
    · rw [hcall hkind]
      exact ⟨Nat.le_refl _, hhi⟩
    · exact h.within part hpart s hs

end Gathered

end Localization.Source
