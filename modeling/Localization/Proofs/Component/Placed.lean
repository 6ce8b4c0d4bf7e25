import Localization.Proofs.Component.Emitted
import Localization.Proofs.Edit.Apart

/-!
The edits of a wrapping stand apart. In a module whose nodes are where they should be, no two edits of the
candidates overlap, each is inside the body of its candidate, and all of them together can be made. Main
statement: `wrapModule_edits_apart`.
-/

namespace Localization

open Source (Node Kind Span ScopeStack)
open Source.Span (Nested)

/-- The bytes that a literal stands on. -/
def Literal.range (l : Literal) : Span :=
  ⟨l.start, l.stop⟩

/-- A node is where it should be: between characters, with parts that do not overlap. A literal is not
empty, the parts of a block stand behind its brace, and nothing of the body of a candidate stands outside
of it. -/
structure IsPlaced (source : List Char) (n : Node) : Prop where
  ordered : n.span.lo ≤ n.span.hi
  start : Text.IsBoundary source n.span.lo
  stop : Text.IsBoundary source n.span.hi
  apart : (Node.extentsAll n.children).Pairwise Span.Apart
  literal : (Literal.ofNode? source n).isSome = true → n.span.lo < n.span.hi
  block : n.kind = .block → n.span.lo + 1 ≤ n.span.hi ∧
    Text.IsBoundary source (n.span.lo + 1) ∧ ∀ s ∈ Node.extentsAll n.children, n.span.lo + 1 ≤ s.lo
  body : ∀ c ∈ Candidate.ofNode? n, c.body.extents = [c.body.span]

instance (source : List Char) (n : Node) : Decidable (IsPlaced source n) :=
  decidable_of_iff
    (n.span.lo ≤ n.span.hi ∧ Text.IsBoundary source n.span.lo ∧ Text.IsBoundary source n.span.hi ∧
      (Node.extentsAll n.children).Pairwise Span.Apart ∧
      ((Literal.ofNode? source n).isSome = true → n.span.lo < n.span.hi) ∧
      (n.kind = .block → n.span.lo + 1 ≤ n.span.hi ∧ Text.IsBoundary source (n.span.lo + 1) ∧
        ∀ s ∈ Node.extentsAll n.children, n.span.lo + 1 ≤ s.lo) ∧
      ∀ c ∈ Candidate.ofNode? n, c.body.extents = [c.body.span])
    ⟨fun ⟨ordered, start, stop, apart, literal, block, body⟩ =>
        ⟨ordered, start, stop, apart, literal, block, body⟩,
      fun h => ⟨h.ordered, h.start, h.stop, h.apart, h.literal, h.block, h.body⟩⟩

/-- Every node of a tree is where it should be. -/
def WellPlaced (source : List Char) (n : Node) : Prop :=
  ∀ m ∈ n.walk, IsPlaced source m

instance (source : List Char) (n : Node) : Decidable (WellPlaced source n) :=
  inferInstanceAs (Decidable (∀ m ∈ n.walk, IsPlaced source m))

theorem WellPlaced.here {source : List Char} {n : Node} (h : WellPlaced source n) :
    IsPlaced source n :=
  h n (Node.mem_walk_self n)

theorem WellPlaced.below {source : List Char} {n m : Node} (h : WellPlaced source n)
    (hm : m ∈ n.walk) : WellPlaced source m :=
  fun part hpart => h part (Node.mem_walk_trans hm hpart)

theorem WellPlaced.part {source : List Char} {n part : Node} (h : WellPlaced source n)
    (hpart : part ∈ n.children) : WellPlaced source part :=
  h.below (Node.mem_walk_of_child hpart part.mem_walk_self)

namespace Literal

theorem range_inside_of_ofElementText? {source : List Char} {span : Span} {value : String}
    {l : Literal} (h : ofElementText? source span value = some l) :
    l.range.Inside span ∧ l.start < l.stop := by
  simp only [ofElementText?] at h
  split at h
  · contradiction
  · next hkept =>
      simp only [Bool.or_eq_true, decide_eq_true_eq, not_or, Nat.not_le] at hkept
      obtain rfl := Option.some.inj h
      exact ⟨⟨Nat.le_add_right _ _, Nat.sub_le _ _⟩, hkept.2⟩

theorem isBoundary_of_ofElementText? {source : List Char} {span : Span} {value : String}
    {l : Literal} (hordered : span.lo ≤ span.hi) (hlo : Text.IsBoundary source span.lo)
    (hhi : Text.IsBoundary source span.hi) (h : ofElementText? source span value = some l) :
    Text.IsBoundary source l.start ∧ Text.IsBoundary source l.stop := by
  simp only [ofElementText?] at h
  split at h
  · contradiction
  · obtain rfl := Option.some.inj h
    exact ⟨Text.isBoundary_trimLeft hlo hhi hordered, Text.isBoundary_trimRight hlo hhi hordered⟩

theorem isFrame_of_ofNode? {source : List Char} {n : Node} {l : Literal}
    (h : ofNode? source n = some l) : n.kind.isFrame = false := by
  cases hframe : n.kind.isFrame with
  | false => rfl
  | true =>
      simp only [Kind.isFrame] at hframe
      split at hframe
      · next hkind => simp [ofNode?, hkind] at h
      · next hkind => simp [ofNode?, hkind] at h
      · contradiction

/-- A literal is its node, or it is the text of an element without the white space around it. -/
theorem eq_span_or_elementText_of_ofNode? {source : List Char} {n : Node} {l : Literal}
    (h : ofNode? source n = some l) :
    l.range = n.span ∨ ∃ value, ofElementText? source n.span value = some l := by
  simp only [ofNode?] at h
  split at h
  · exact .inl (Option.some.inj h ▸ rfl)
  · exact .inl (Option.some.inj h ▸ rfl)
  · split at h
    · exact .inl (Option.some.inj h ▸ rfl)
    · contradiction
  · next value hkind => exact .inr ⟨value, h⟩
  · contradiction

/-- A literal that may be replaced stands on some characters of its node. -/
structure Fits (source : List Char) (n : Node) (l : Literal) : Prop where
  inside : l.range.Inside n.span
  nonempty : l.start < l.stop
  start : Text.IsBoundary source l.start
  stop : Text.IsBoundary source l.stop

theorem fits_of_ofNode? {source : List Char} {n : Node} {l : Literal} (hn : IsPlaced source n)
    (h : ofNode? source n = some l) : l.Fits source n := by
  rcases eq_span_or_elementText_of_ofNode? h with hspan | ⟨value, htext⟩
  · have hlo : l.start = n.span.lo := congrArg Span.lo hspan
    have hhi : l.stop = n.span.hi := congrArg Span.hi hspan
    refine ⟨hspan ▸ .refl l.range, ?_, hlo ▸ hn.start, hhi ▸ hn.stop⟩
    rw [hlo, hhi]
    exact hn.literal (by rw [h]; rfl)
  · obtain ⟨hinside, hnonempty⟩ := range_inside_of_ofElementText? htext
    obtain ⟨hstart, hstop⟩ := isBoundary_of_ofElementText? hn.ordered hn.start hn.stop htext
    exact ⟨hinside, hnonempty, hstart, hstop⟩

theorem exists_fits_of_mem_collect {source : List Char} {n : Node} (h : WellPlaced source n)
    {translated : Bool} {l : Literal} (hl : l ∈ collect source translated n) :
    ∃ m ∈ n.walk, l.Fits source m := by
  obtain ⟨way, hway, hliteral⟩ := exists_way_of_mem_collect translated n l hl
  have hmem := Node.mem_walk_of_isWay hway (Node.endOf_mem n way)
  exact ⟨n.endOf way, hmem, fits_of_ofNode? (h _ hmem) hliteral⟩

/-- The literals in a tree stand apart, each inside of what the tree takes up. -/
theorem nested_collect {source : List Char} {n : Node} (translated : Bool)
    (h : WellPlaced source n) : Nested ((collect source translated n).map range) n.extents := by
  refine Node.nested_search (WellPlaced source)
    (fun inCall m => (collect source inCall m).map range) ?_ ?_ ?_ n translated h
  · exact fun m hm part hpart => hm.part hpart
  · exact fun m hm => hm.here.apart
  · intro inCall m hm
    rcases collect_cases source inCall m with ⟨l, hl, hcollect⟩ | hcollect | hcollect
    · refine .inl ⟨l.range, by rw [hcollect]; rfl, m.span, ?_, (fits_of_ofNode? hm.here hl).inside⟩
      exact Node.span_mem_extents (isFrame_of_ofNode? hl)
    · exact .inr (.inl (by rw [hcollect]; rfl))
    · refine .inr (.inr ⟨isLookupCall m.kind m.children, ?_⟩)
      rw [hcollect, collectAll_eq_flatMap, List.map_flatMap]

end Literal

theorem Candidate.body_mem_walk {n : Node} {c : Candidate} (h : ofNode? n = some c) :
    c.body ∈ n.walk := by
  obtain ⟨way, hway, -, hbody, -⟩ := exists_way_of_ofNode? h
  exact Node.mem_walk_of_isWay hway (List.mem_cons_of_mem n hbody)

theorem Found.body_mem_walk {module : Node} {f : Found} (h : f ∈ moduleCandidates module) :
    f.candidate.body ∈ module.walk := by
  obtain ⟨n, hn, hnode⟩ := exists_node_of_mem_moduleCandidates h
  exact Node.mem_walk_trans hn (Candidate.body_mem_walk hnode)

/-- The bytes of the body of a candidate. -/
def Found.bodySpan (f : Found) : Span :=
  f.candidate.body.span

/-- The bodies of the candidates in a tree stand apart, each inside of what the tree takes up. -/
theorem nested_findCandidates {source : List Char} {n : Node} (scopes : ScopeStack)
    (h : WellPlaced source n) :
    Nested ((findCandidates scopes n).map Found.bodySpan) n.extents := by
  refine Node.nested_search (WellPlaced source)
    (fun around m => (findCandidates around m).map Found.bodySpan) ?_ ?_ ?_ n scopes h
  · exact fun m hm part hpart => hm.part hpart
  · exact fun m hm => hm.here.apart
  · intro around m hm
    rcases findCandidates_cases around m with ⟨c, hc, hfind⟩ | hfind | hfind
    · refine .inl ⟨c.body.span, by rw [hfind]; rfl, ?_⟩
      refine Node.exists_extent_of_mem_walk m c.body (Candidate.body_mem_walk hc) _ ?_
      rw [hm.here.body c hc]
      exact List.mem_singleton_self _
    · exact .inr (.inl (by rw [hfind]; rfl))
    · refine .inr (.inr ⟨scopesInside around m, ?_⟩)
      rw [hfind, findCandidatesAll_eq_flatMap, List.map_flatMap]

/-- A candidate of a module whose body is where it should be, with nothing outside of it. -/
theorem wellPlaced_body {source : List Char} {module : Node} {f : Found}
    (h : WellPlaced source module) (hf : f ∈ moduleCandidates module) :
    WellPlaced source f.candidate.body ∧ f.candidate.body.extents = [f.bodySpan] := by
  obtain ⟨n, hn, hnode⟩ := exists_node_of_mem_moduleCandidates hf
  exact ⟨h.below (Node.mem_walk_trans hn (Candidate.body_mem_walk hnode)), (h n hn).body _ hnode⟩

/-- The hook is put behind the brace of a block, or around an expression. -/
theorem Found.hookEdits_cases (f : Found) (source : List Char) (space : Option String) :
    f.hookEdits source space = [] ∨
      (f.candidate.body.kind = .block ∧
        ∃ text, f.hookEdits source space = [Edit.insert (f.bodySpan.lo + 1) text]) ∨
      ∃ opening closing, f.hookEdits source space =
        [Edit.insert f.bodySpan.lo opening, Edit.insert f.bodySpan.hi closing] := by
  simp only [hookEdits, Candidate.hookEdits?]
  split
  · exact .inl rfl
  · split
    · exact .inl rfl
    · split
      · next hblock => exact .inr (.inl ⟨beq_iff_eq.mp hblock, _, rfl⟩)
      · exact .inr (.inr ⟨_, _, rfl⟩)

theorem Literal.behind_brace {source : List Char} {b : Node} (h : WellPlaced source b)
    (hblock : b.kind = .block) {translated : Bool} {l : Literal}
    (hl : l ∈ collect source translated b) : b.span.lo + 1 ≤ l.start := by
  rcases collect_cases source translated b with ⟨l', hl', -⟩ | hcollect | hcollect
  · simp [ofNode?, hblock] at hl'
  · simp [hcollect] at hl
  · rw [hcollect, collectAll_eq_flatMap] at hl
    obtain ⟨part, hpart, hfound⟩ := List.mem_flatMap.mp hl
    obtain ⟨e, he, hinside⟩ :=
      (nested_collect _ (h.part hpart)).inside l.range (List.mem_map_of_mem hfound)
    have hall : e ∈ Node.extentsAll b.children := by
      rw [Node.extentsAll_eq_flatMap]
      exact List.mem_flatMap.mpr ⟨part, hpart, he⟩
    exact Nat.le_trans ((h.here.block hblock).2.2 e hall) hinside.1

/-- The edits of a candidate can be made, inside of its body and apart from each other. -/
structure Found.EditsFit (f : Found) (o : WrapOptions) (source : List Char) : Prop where
  fits : ∀ e ∈ f.edits o source, e.Fits source
  inside : ∀ e ∈ f.edits o source, e.range.Inside f.bodySpan
  apart : (f.edits o source).Pairwise fun a b => a.range.Apart b.range

section Candidate

variable {source : List Char} {f : Found}

theorem nested_literals (hbody : WellPlaced source f.candidate.body)
    (hextents : f.candidate.body.extents = [f.bodySpan]) (classifier : Classifier) :
    Nested ((f.candidate.literals source classifier).map Literal.range) [f.bodySpan] := by
  have hnested := Literal.nested_collect false hbody
  rw [hextents] at hnested
  exact hnested.sublist (List.filter_sublist.map Literal.range)

theorem exists_fits_of_mem_literals (hbody : WellPlaced source f.candidate.body)
    {classifier : Classifier} {l : Literal} (hl : l ∈ f.candidate.literals source classifier) :
    ∃ m ∈ f.candidate.body.walk, l.Fits source m :=
  Literal.exists_fits_of_mem_collect hbody (List.mem_filter.mp hl).1

theorem range_inside_body (hbody : WellPlaced source f.candidate.body)
    (hextents : f.candidate.body.extents = [f.bodySpan]) {classifier : Classifier} {l : Literal}
    (hl : l ∈ f.candidate.literals source classifier) : l.range.Inside f.bodySpan := by
  obtain ⟨e, he, hinside⟩ := (nested_literals hbody hextents classifier).inside l.range
    (List.mem_map_of_mem hl)
  obtain rfl := List.mem_singleton.mp he
  exact hinside

theorem fits_hookEdits (hbody : WellPlaced source f.candidate.body) (space : Option String) :
    ∀ e ∈ f.hookEdits source space, e.Fits source ∧ e.range.Inside f.bodySpan := by
  have hplaced := hbody.here
  rcases f.hookEdits_cases source space with hnone | ⟨hblock, text, htext⟩ |
    ⟨opening, closing, htexts⟩
  · simp [hnone]
  · obtain ⟨hwide, hboundary, -⟩ := hplaced.block hblock
    rw [htext, List.forall_mem_singleton]
    exact ⟨Edit.fits_insert hboundary text, Nat.le_succ _, hwide⟩
  · rw [htexts, List.forall_mem_cons, List.forall_mem_singleton]
    refine ⟨⟨Edit.fits_insert hplaced.start opening, Nat.le_refl _, hplaced.ordered⟩, ?_⟩
    exact ⟨Edit.fits_insert hplaced.stop closing, hplaced.ordered, Nat.le_refl _⟩

theorem pairwise_hookEdits (hbody : WellPlaced source f.candidate.body) (space : Option String) :
    (f.hookEdits source space).Pairwise fun a b => a.range.Apart b.range := by
  rcases f.hookEdits_cases source space with hnone | ⟨-, text, htext⟩ | ⟨opening, closing, htexts⟩
  · rw [hnone]
    exact .nil
  · rw [htext]
    exact List.pairwise_singleton _ _
  · rw [htexts, List.pairwise_pair]
    exact .inl hbody.here.ordered

/-- The hook stands apart from the literals: it is in front of the statements of a block, or at the ends
of an expression. -/
theorem apart_hookEdits (hbody : WellPlaced source f.candidate.body)
    (hextents : f.candidate.body.extents = [f.bodySpan]) {classifier : Classifier} {l : Literal}
    (hl : l ∈ f.candidate.literals source classifier) (space : Option String) :
    ∀ e ∈ f.hookEdits source space, l.range.Apart e.range := by
  obtain ⟨hlo, hhi⟩ := range_inside_body hbody hextents hl
  rcases f.hookEdits_cases source space with hnone | ⟨hblock, text, htext⟩ |
    ⟨opening, closing, htexts⟩
  · simp [hnone]
  · rw [htext, List.forall_mem_singleton]
    exact .inr (Literal.behind_brace hbody hblock (List.mem_filter.mp hl).1)
  · rw [htexts, List.forall_mem_cons, List.forall_mem_singleton]
    exact ⟨.inr hlo, .inl hhi⟩

theorem Found.editsFit (hbody : WellPlaced source f.candidate.body)
    (hextents : f.candidate.body.extents = [f.bodySpan]) (o : WrapOptions) :
    f.EditsFit o source := by
  refine ⟨?_, ?_, ?_⟩
  · intro e he
    rcases List.mem_append.mp he with hreplacement | hhook
    · obtain ⟨l, hl, rfl⟩ := List.mem_map.mp hreplacement
      obtain ⟨m, -, hfits⟩ := exists_fits_of_mem_literals hbody hl
      exact ⟨Nat.le_of_lt hfits.nonempty, hfits.start, hfits.stop⟩
    · exact (fits_hookEdits hbody o.space e hhook).1
  · intro e he
    rcases List.mem_append.mp he with hreplacement | hhook
    · obtain ⟨l, hl, rfl⟩ := List.mem_map.mp hreplacement
      exact range_inside_body hbody hextents hl
    · exact (fits_hookEdits hbody o.space e hhook).2
  · refine List.pairwise_append.mpr ⟨?_, pairwise_hookEdits hbody o.space, ?_⟩
    · have hapart := (nested_literals hbody hextents o.classifier).apart
      exact List.pairwise_map.mpr (List.pairwise_map.mp hapart)
    · intro e he hook hhook
      obtain ⟨l, hl, rfl⟩ := List.mem_map.mp he
      exact apart_hookEdits hbody hextents hl o.space hook hhook

end Candidate

/-- The candidates of a module with a text to be wrapped. -/
def changedCandidates (o : WrapOptions) (source : List Char) (module : Node) : List Found :=
  (moduleCandidates module).filter fun f => f.changes o source

theorem pairwise_bodySpan_moduleCandidates {source : List Char} {module : Node}
    (h : WellPlaced source module) :
    (moduleCandidates module).Pairwise fun f g => f.bodySpan.Apart g.bodySpan := by
  rw [moduleCandidates, findCandidatesAll_eq_flatMap]
  refine List.pairwise_map.mp ?_
  rw [List.map_flatMap]
  exact (Node.nested_flatMap h.here.apart fun n hn => nested_findCandidates _ (h.part hn)).apart

/-- What stands apart in the body of each changed candidate stands apart in the module. -/
theorem pairwise_flatMap_changedCandidates {o : WrapOptions} {source : List Char} {module : Node}
    {α : Type} {items : Found → List α} (range : α → Span) (h : WellPlaced source module)
    (hitems : ∀ f ∈ changedCandidates o source module,
      ((items f).Pairwise fun a b => (range a).Apart (range b)) ∧
        ∀ a ∈ items f, (range a).Inside f.bodySpan) :
    ((changedCandidates o source module).flatMap items).Pairwise
      fun a b => (range a).Apart (range b) := by
  have hbodies := (pairwise_bodySpan_moduleCandidates h).sublist
    (List.filter_sublist (p := fun f => f.changes o source))
  refine List.pairwise_flatMap.mpr ⟨fun f hf => (hitems f hf).1, ?_⟩
  refine hbodies.imp_of_mem ?_
  intro f g hf hg hapart a ha b hb
  exact hapart.of_inside ((hitems f hf).2 a ha) ((hitems g hg).2 b hb)

/-- No literal is found twice. -/
theorem nodup_changed_literals {o : WrapOptions} {source : List Char} {module : Node}
    (h : WellPlaced source module) :
    (((changedCandidates o source module).flatMap fun f =>
      f.candidate.literals source o.classifier).map Literal.range).Nodup := by
  have hbody : ∀ f ∈ changedCandidates o source module, WellPlaced source f.candidate.body ∧
      f.candidate.body.extents = [f.bodySpan] :=
    fun f hf => wellPlaced_body h (List.mem_filter.mp hf).1
  have hapart : ((changedCandidates o source module).flatMap fun f =>
      f.candidate.literals source o.classifier).Pairwise fun a b => a.range.Apart b.range := by
    refine pairwise_flatMap_changedCandidates Literal.range h fun f hf => ⟨?_, ?_⟩
    · exact List.pairwise_map.mp (nested_literals (hbody f hf).1 (hbody f hf).2 o.classifier).apart
    · exact fun l hl => range_inside_body (hbody f hf).1 (hbody f hf).2 hl
  refine List.pairwise_map.mpr (hapart.imp_of_mem ?_)
  intro l l' hl _ hoverlap hsame
  rw [← hsame] at hoverlap
  obtain ⟨f, hf, hmem⟩ := List.mem_flatMap.mp hl
  obtain ⟨m, -, hfits⟩ := exists_fits_of_mem_literals (hbody f hf).1 hmem
  -- A literal that is not empty overlaps itself.
  rcases hoverlap with hstop | hstop
  · exact Nat.not_lt.mpr hstop hfits.nonempty
  · exact Nat.not_lt.mpr hstop hfits.nonempty

/-- In a module whose nodes are where they should be, the edits of the candidates can be made. They are
between characters, inside of the body of their candidate and apart from each other, no literal is
replaced twice, and so everything outside of the bodies of the changed candidates is kept. -/
theorem wrapModule_edits_apart {o : WrapOptions} {source : List Char} {module : Node}
    (h : WellPlaced source module) :
    (wrapModule o source module).edits =
        (changedCandidates o source module).flatMap (fun f => f.edits o source) ∧
      (∀ f ∈ changedCandidates o source module, ∀ e ∈ f.edits o source,
        e.Fits source ∧ e.range.Inside f.bodySpan) ∧
      ((wrapModule o source module).edits.Pairwise fun a b => a.range.Apart b.range) ∧
      ((((changedCandidates o source module).flatMap fun f =>
        f.candidate.literals source o.classifier).map Literal.range).Nodup) ∧
      ∃ output pieces rest,
        Edit.applyAll source (wrapModule o source module).edits = .ok output ∧
        pieces.map Piece.edit = Edit.sort (wrapModule o source module).edits ∧
        Piece.Placed 0 pieces ∧
        source = pieces.flatMap Piece.before ++ rest ∧
        output = pieces.flatMap Piece.after ++ rest ∧
        ∀ p ∈ pieces, ∃ f ∈ changedCandidates o source module, p.edit.range.Inside f.bodySpan := by
  have hedits := edits_wrapModule o source module
  have hfits : ∀ f ∈ changedCandidates o source module, f.EditsFit o source := by
    intro f hf
    obtain ⟨hbody, hextents⟩ := wellPlaced_body h (List.mem_filter.mp hf).1
    exact Found.editsFit hbody hextents o
  have hapart : (wrapModule o source module).edits.Pairwise fun a b => a.range.Apart b.range := by
    rw [hedits]
    exact pairwise_flatMap_changedCandidates Edit.range h
      fun f hf => ⟨(hfits f hf).apart, (hfits f hf).inside⟩
  have hfrom : ∀ e ∈ (wrapModule o source module).edits,
      ∃ f ∈ changedCandidates o source module, e.Fits source ∧ e.range.Inside f.bodySpan := by
    intro e he
    rw [hedits] at he
    obtain ⟨f, hf, hmem⟩ := List.mem_flatMap.mp he
    exact ⟨f, hf, (hfits f hf).fits e hmem, (hfits f hf).inside e hmem⟩
  refine ⟨hedits, fun f hf e he => ⟨(hfits f hf).fits e he, (hfits f hf).inside e he⟩, hapart,
    nodup_changed_literals h, ?_⟩
  obtain ⟨output, houtput⟩ := Edit.exists_output_of_apart
    (fun e he => (hfrom e he).choose_spec.2.1) hapart
  obtain ⟨pieces, rest, hpieces, hplaced, hsource, hresult⟩ := Edit.applyAll_eq_ok_iff.mp houtput
  refine ⟨output, pieces, rest, houtput, hpieces, hplaced, hsource, hresult, ?_⟩
  intro p hp
  have hmem : p.edit ∈ (wrapModule o source module).edits := by
    rw [← Edit.mem_sort, ← hpieces]
    exact List.mem_map_of_mem hp
  obtain ⟨f, hf, -, hinside⟩ := hfrom p.edit hmem
  exact ⟨f, hf, hinside⟩

/-- A component with a block, which has a decorated class in it, and one that is an expression. -/
def twoComponents : List Char :=
  ("function A() \x7b @d class C \x7b m = \x7b \"제목\": 1 \x7d; \x7d " ++
    "return <p title=\"이름\"> 안녕 </p>; \x7d\n" ++
    "export const B = () => <b>네</b>;\n").toList

def wrappedTwoComponents : List Char :=
  ("function A() \x7b const \x7b t \x7d = useTranslation(); " ++
    "@d class C \x7b m = \x7b [t(\"제목\")]: 1 \x7d; \x7d " ++
    "return <p title=\x7bt(\"이름\")\x7d> \x7bt(\"안녕\")\x7d </p>; \x7d\n" ++
    "export const B = () => \x7b const \x7b t \x7d = useTranslation(); return " ++
    "<b>\x7bt(\"네\")\x7d</b>; \x7d;\n").toList

theorem wrapModule_edits_apart_twoComponents :
    ∃ (module : Node) (pieces : List Piece) (rest : List Char),
      Source.parseFile "a.tsx" twoComponents = .ok module ∧ WellPlaced twoComponents module ∧
        (wrapModule (koreanOptions none) twoComponents module).edits.length = 7 ∧
        Edit.applyAll twoComponents (wrapModule (koreanOptions none) twoComponents module).edits =
          .ok wrappedTwoComponents ∧
        twoComponents = pieces.flatMap Piece.before ++ rest ∧
        wrappedTwoComponents = pieces.flatMap Piece.after ++ rest ∧
        ∀ p ∈ pieces, ∃ f ∈ changedCandidates (koreanOptions none) twoComponents module,
          p.edit.range.Inside f.bodySpan := by
  obtain ⟨module, hmodule, hfacts⟩ := exists_module "a.tsx" twoComponents
    (p := fun m => decide (WellPlaced twoComponents m) &&
      ((wrapModule (koreanOptions none) twoComponents m).edits.length == 7 &&
        (Edit.applyAll twoComponents (wrapModule (koreanOptions none) twoComponents m).edits).toOption
          == some wrappedTwoComponents)) (by decide +kernel)
  simp only [Bool.and_eq_true, decide_eq_true_eq, beq_iff_eq] at hfacts
  obtain ⟨hplaced, hlength, hexpected⟩ := hfacts
  obtain ⟨-, -, -, -, output, pieces, rest, houtput, -, -, hsource, hresult, hinside⟩ :=
    wrapModule_edits_apart (o := koreanOptions none) hplaced
  rw [houtput, Except.toOption, Option.some.injEq] at hexpected
  rw [hexpected] at houtput hresult
  exact ⟨module, pieces, rest, hmodule, hplaced, hlength, houtput, hsource, hresult, hinside⟩

end Localization
