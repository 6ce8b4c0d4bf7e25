import Localization.Proofs.Source.Grammar.Run
import Localization.Proofs.Source.Order.Node

/-!
Readers whose results are in the order of the text. A reader is followed step by step with the nodes that
were read so far. Main definitions: `Passes` for readers without nodes, `Reads` for the rest of a reader, and
`Reader` for a reader from its first token on.
-/

namespace Localization.Source.Parser

/-- The nodes of what a reader gives. -/
class HasParts (α : Type) where
  parts : α → List Node

export HasParts (parts)

section

variable {α β : Type} [HasParts α] [HasParts β]

instance : HasParts Node := ⟨fun n => [n]⟩
instance : HasParts Kind := ⟨fun _ => []⟩
instance : HasParts Bool := ⟨fun _ => []⟩
instance : HasParts (Option String) := ⟨fun _ => []⟩
instance : HasParts (List Node) := ⟨fun nodes => nodes⟩
instance : HasParts (List (List Node)) := ⟨List.flatten⟩
instance : HasParts (List (Node × Bool)) := ⟨List.map Prod.fst⟩
instance : HasParts (Option α) := ⟨fun | none => [] | some a => parts a⟩
instance : HasParts (α × β) := ⟨fun r => parts r.1 ++ parts r.2⟩

@[grind =] theorem parts_node (n : Node) : parts n = [n] := rfl

@[grind =] theorem parts_nodes (nodes : List Node) : parts nodes = nodes := rfl

@[grind =] theorem parts_none : parts (none : Option α) = [] := rfl

@[grind =] theorem parts_some (a : α) : parts (some a) = parts a := rfl

@[grind =] theorem parts_pair (r : α × β) : parts r = parts r.1 ++ parts r.2 := rfl

end

variable {α β : Type} [HasParts α] [HasParts β] [g : Gap] {o : Bool} {base lo : Nat} {acc kept used : List Node}

/-- A reader that goes on from a place behind a gap to another one. -/
class Passes {α : Type} [g : Gap] (p : Parser α) : Prop where
  of_run : ∀ {c a c'}, c.Behind g → p c = .ok (a, c') → c'.Behind g ∧ c.token.span.lo ≤ c'.token.span.lo

/-- The rest of a reader that has gathered nodes: what it gives is gathered as well. -/
structure Reads [g : Gap] (o : Bool) (base : Nat) (acc : List Node) (p : Parser α) : Prop where
  of_run : ∀ {c a c'}, c.Behind g → base ≤ c.token.span.lo → Gathered o base c.token.span.lo acc →
    p c = .ok (a, c') → (c'.Behind g ∧ c.token.span.lo ≤ c'.token.span.lo) ∧
      Gathered o base c'.token.span.lo (parts a)

/-- A reader whose nodes are in order if `o` says so. -/
class Reader [g : Gap] (o : Bool) (p : Parser α) : Prop where
  reads : ∀ base, Reads o base [] p

theorem Reader.passes {p : Parser α} (h : Reader o p) : Passes p :=
  ⟨fun hc hrun => ((h.reads _).of_run hc (Nat.le_refl _) .nil hrun).1⟩

instance (priority := low) passes_of_reader {p : Parser α} [h : Reader true p] : Passes p :=
  h.passes

theorem Reader.gathered {p : Parser α} (h : Reader o p) {c c' : Cursor} {a : α} (hc : c.Behind g)
    (hrun : p c = .ok (a, c')) : Gathered o c.token.span.lo c'.token.span.lo (parts a) :=
  ((h.reads _).of_run hc (Nat.le_refl _) .nil hrun).2

/-- What stays behind every gap goes on. -/
theorem passes_of_keeps {α : Type} {p : Parser α} {Q : Gap → α → Prop} (h : ∀ g, Keeps g p (Q g)) : Passes p :=
  ⟨fun hc hrun => ⟨(keeps_iff.mp (h g) _ _ _ hc hrun).1,
    (keeps_iff.mp (h _) _ _ _ hc.behind_tail hrun).1.lo⟩⟩

/-! ### Steps -/

instance passes_bind {α β : Type} {x : Parser β} {f : β → Parser α} [hx : Passes x]
    [h : ∀ b, Passes (f b)] : Passes (x >>= f) := by
  constructor
  intro c a c' hc hrun
  obtain ⟨b, c₁, hb, hrun⟩ := bind_eq_ok.mp hrun
  obtain ⟨hc₁, hle⟩ := hx.of_run hc hb
  obtain ⟨hc', hle'⟩ := (h b).of_run hc₁ hrun
  exact ⟨hc', Nat.le_trans hle hle'⟩

instance passes_pure {α : Type} (a : α) : Passes (pure a : Parser α) := by
  constructor
  intro c b c' hc hrun
  cases hrun
  exact ⟨hc, Nat.le_refl _⟩

instance passes_fail {α : Type} : Passes (fail : Parser α) :=
  ⟨fun _ hrun => nomatch hrun⟩

instance passes_ite {α : Type} {P : Prop} [Decidable P] {p q : Parser α} [hp : Passes p] [hq : Passes q] :
    Passes (if P then p else q) := by
  split
  · exact hp
  · exact hq

namespace Reads

variable {p q : Parser α}

/-- A further reader: its nodes stand behind those that were gathered. -/
theorem bind {x : Parser β} {f : β → Parser α} (hx : Reader o x)
    (h : ∀ b, Reads o base (acc ++ parts b) (f b)) : Reads o base acc (x >>= f) := by
  constructor
  intro c a c' hc hbase hacc hrun
  obtain ⟨b, c₁, hb, hrun⟩ := bind_eq_ok.mp hrun
  obtain ⟨hc₁, hle⟩ := hx.passes.of_run hc hb
  obtain ⟨⟨hc', hle'⟩, ha⟩ := (h b).of_run hc₁ (Nat.le_trans hbase hle)
    (hacc.append (hx.gathered hc hb) hbase hle) hrun
  exact ⟨⟨hc', Nat.le_trans hle hle'⟩, ha⟩

theorem read {x : Parser β} {f : β → Parser α} [hx : Reader o x]
    (h : ∀ b, Reads o base (acc ++ parts b) (f b)) : Reads o base acc (x >>= f) :=
  bind hx h

/-- A further reader of which more is known. -/
theorem readKnowing {x : Parser β} {f : β → Parser α} {Q : β → Prop} (hx : Reader o x)
    (hQ : ∀ {c b c'}, c.Behind g → x c = .ok (b, c') → Q b)
    (h : ∀ b, Q b → Reads o base (acc ++ parts b) (f b)) : Reads o base acc (x >>= f) := by
  constructor
  intro c a c' hc hbase hacc hrun
  obtain ⟨b, c₁, hb, hrun⟩ := bind_eq_ok.mp hrun
  obtain ⟨hc₁, hle⟩ := hx.passes.of_run hc hb
  obtain ⟨⟨hc', hle'⟩, ha⟩ := (h b (hQ hc hb)).of_run hc₁ (Nat.le_trans hbase hle)
    (hacc.append (hx.gathered hc hb) hbase hle) hrun
  exact ⟨⟨hc', Nat.le_trans hle hle'⟩, ha⟩

/-- A reader without nodes. -/
theorem pass {β : Type} {x : Parser β} {f : β → Parser α} (hx : Passes x) (h : ∀ b, Reads o base acc (f b)) :
    Reads o base acc (x >>= f) := by
  constructor
  intro c a c' hc hbase hacc hrun
  obtain ⟨b, c₁, hb, hrun⟩ := bind_eq_ok.mp hrun
  obtain ⟨hc₁, hle⟩ := hx.of_run hc hb
  obtain ⟨⟨hc', hle'⟩, ha⟩ := (h b).of_run hc₁ (Nat.le_trans hbase hle) (hacc.widen hle) hrun
  exact ⟨⟨hc', Nat.le_trans hle hle'⟩, ha⟩

theorem skip {β : Type} {x : Parser β} {f : β → Parser α} [hx : Passes x] (h : ∀ b, Reads o base acc (f b)) :
    Reads o base acc (x >>= f) :=
  pass hx h

/-- A reader that goes on with the last of the nodes. Those in front of them stay in front of what it
gives. -/
theorem tail {x : Parser β} {f : β → Parser α} (hx : ∀ base, Reads o base used x)
    (h : ∀ b, Reads o base (kept ++ parts b) (f b)) : Reads o base (kept ++ used) (x >>= f) := by
  constructor
  intro c a c' hc hbase hacc hrun
  obtain ⟨b, c₁, hb, hrun⟩ := bind_eq_ok.mp hrun
  have hkept := hacc.sublist (List.sublist_append_left kept used)
  have hused := hacc.sublist (List.sublist_append_right kept used)
  obtain ⟨⟨hc₁, hle⟩, hparts⟩ := (hx base).of_run hc hbase hused hb
  have hall : Gathered o base c₁.token.span.lo (kept ++ parts b) := by
    refine ⟨List.forall_mem_append.mpr ⟨hkept.tidy, hparts.tidy⟩,
      List.forall_mem_append.mpr ⟨(hkept.widen hle).within, hparts.within⟩, fun ho => ?_⟩
    refine List.pairwise_append.mpr ⟨hkept.inOrder ho, hparts.inOrder ho, fun m hm n hn s hs t ht => ?_⟩
    -- The calls that it began with are behind `s`, so it gives no call in front of `s`.
    have hbefore := (List.pairwise_append.mp (hacc.inOrder ho)).2.2
    have hbehind : Gathered o s c.token.span.lo used :=
      ⟨hused.tidy, fun u hu t ht => ⟨hbefore m hm u hu s hs t ht, (hused.within u hu t ht).2⟩, hused.inOrder⟩
    exact (((hx s).of_run hc (hkept.within m hm s hs).2 hbehind hb).2.within n hn t ht).1
  obtain ⟨⟨hc', hle'⟩, ha⟩ := (h b).of_run hc₁ (Nat.le_trans hbase hle) hall hrun
  exact ⟨⟨hc', Nat.le_trans hle hle'⟩, ha⟩

/-- A reader that goes on with all of the nodes. -/
theorem last {x : Parser β} {f : β → Parser α} (hx : Reads o base acc x)
    (h : ∀ b, Reads o base (parts b) (f b)) : Reads o base acc (x >>= f) := by
  constructor
  intro c a c' hc hbase hacc hrun
  obtain ⟨b, c₁, hb, hrun⟩ := bind_eq_ok.mp hrun
  obtain ⟨⟨hc₁, hle⟩, hparts⟩ := hx.of_run hc hbase hacc hb
  obtain ⟨⟨hc', hle'⟩, ha⟩ := (h b).of_run hc₁ (Nat.le_trans hbase hle) hparts hrun
  exact ⟨⟨hc', Nat.le_trans hle hle'⟩, ha⟩

/-- A reader that goes on with all of the nodes, or finds nothing. -/
theorem either {x : Parser (Option β)} {f : Option β → Parser α} (hx : Reads o base acc x)
    (hsome : ∀ b, Reads o base (parts b) (f (some b))) (hnone : Reads o base acc (f none)) :
    Reads o base acc (x >>= f) := by
  constructor
  intro c a c' hc hbase hacc hrun
  obtain ⟨found, c₁, hfound, hrun⟩ := bind_eq_ok.mp hrun
  obtain ⟨⟨hc₁, hle⟩, hparts⟩ := hx.of_run hc hbase hacc hfound
  cases found with
  | none =>
      obtain ⟨⟨hc', hle'⟩, ha⟩ := hnone.of_run hc₁ (Nat.le_trans hbase hle) (hacc.widen hle) hrun
      exact ⟨⟨hc', Nat.le_trans hle hle'⟩, ha⟩
  | some b =>
      obtain ⟨⟨hc', hle'⟩, ha⟩ := (hsome b).of_run hc₁ (Nat.le_trans hbase hle) hparts hrun
      exact ⟨⟨hc', Nat.le_trans hle hle'⟩, ha⟩

theorem attempt (h : Reads o base acc p) : Reads o base acc (attempt p) := by
  constructor
  intro c found c' hc hbase hacc hrun
  rw [Parser.attempt] at hrun
  split at hrun
  · next hp =>
      cases hrun
      exact h.of_run hc hbase hacc hp
  · cases hrun
    exact ⟨⟨hc, Nat.le_refl _⟩, .nil⟩

/-- Other nodes are gathered in the place of those that were. -/
theorem regroup (h : Reads o base used p)
    (hused : ∀ hi, base ≤ hi → Gathered o base hi acc → Gathered o base hi used) :
    Reads o base acc p :=
  ⟨fun hc hbase hacc hrun => h.of_run hc hbase (hused _ hbase hacc) hrun⟩

theorem shrink (h : Reads o base used p) (hused : used.Sublist acc) : Reads o base acc p :=
  h.regroup fun _ _ hacc => hacc.sublist hused

/-- A name is put in front. -/
theorem front {name : List Node} (hname : ∀ o lo hi, Gathered o lo hi name) (h : Reads o base (name ++ acc) p) :
    Reads o base acc p :=
  h.regroup fun _ hbase hacc => (hname o base base).append hacc (Nat.le_refl _) hbase

/-- A leaf for what was passed. -/
theorem leaf (kind : Kind) (span : Span) (hlo : g.Stops span.lo) (hkind : kind.keepsOrder = true)
    (h : Reads o base (acc ++ [Node.leaf kind span]) p) : Reads o base acc p :=
  h.regroup fun _ hbase hacc => hacc.append (.leaf hlo (Kind.ne_block_of_keepsOrder hkind)
    (Kind.ne_call_of_isLoose (Kind.isLoose_of_keepsOrder hkind))) hbase (Nat.le_refl _)

/-- The rest is a reader of its own, and what was gathered is left out. -/
theorem only [h : Reader o p] : Reads o base acc p :=
  (h.reads base).shrink (List.nil_sublist acc)

theorem onlyOf (h : Reader o p) : Reads o base acc p :=
  (h.reads base).shrink (List.nil_sublist acc)

theorem here {f : Nat → Parser α} (h : ∀ lo, g.Stops lo → Reads o base acc (f lo)) :
    Reads o base acc (here >>= f) :=
  ⟨fun hc hbase hacc hrun => (h _ hc.stops_lo).of_run hc hbase hacc hrun⟩

theorem token {f : Token → Parser α} (h : ∀ t : Token, g.Stops t.span.lo → Reads o base acc (f t)) :
    Reads o base acc (token >>= f) :=
  ⟨fun hc hbase hacc hrun => (h _ hc.stops_lo).of_run hc hbase hacc hrun⟩

theorem cursor {f : Cursor → Parser α} (h : ∀ c : Cursor, c.Behind g → Reads o base acc (f c)) :
    Reads o base acc (get >>= f) :=
  ⟨fun hc hbase hacc hrun => (h _ hc).of_run hc hbase hacc hrun⟩

/-- What is read from here on begins here. -/
theorem start {f : Nat → Parser α} (h : ∀ lo, g.Stops lo → Reads o lo [] (f lo)) :
    Reads o base [] (Parser.here >>= f) := by
  constructor
  intro c a c' hc hbase hacc hrun
  obtain ⟨hc', ha⟩ := (h _ hc.stops_lo).of_run hc (Nat.le_refl _) .nil hrun
  exact ⟨hc', ha.lower hbase⟩

/-! ### Branches and results -/

theorem ite {P : Prop} [Decidable P] (hp : Reads o base acc p) (hq : Reads o base acc q) :
    Reads o base acc (if P then p else q) := by
  split
  · exact hp
  · exact hq

theorem fail : Reads o base acc (fail : Parser α) :=
  ⟨fun _ _ _ hrun => nomatch hrun⟩

theorem failBind {β : Type} {f : β → Parser α} : Reads o base acc (Parser.fail >>= f) :=
  ⟨fun _ _ _ hrun => nomatch hrun⟩

theorem pure {a : α} (h : (parts a).Sublist acc) : Reads o base acc (pure a) := by
  constructor
  intro c a' c' hc hbase hacc hrun
  cases hrun
  exact ⟨⟨hc, Nat.le_refl _⟩, hacc.sublist h⟩

/-- A result that has the nodes in another order. -/
theorem pureLoose {a : α} (h : parts a ⊆ acc) : Reads false base acc (Pure.pure a : Parser α) := by
  constructor
  intro c a' c' hc hbase hacc hrun
  cases hrun
  exact ⟨⟨hc, Nat.le_refl _⟩, hacc.subset h⟩

section

variable {P : Prop} [Decidable P]

/-- A part that was left out. -/
theorem absent (h : Reads o base (acc ++ []) p) : Reads o base acc p :=
  h.shrink (by simp)

/-- A part that may be left out. -/
theorem optional {x : Parser Node} [Reader o x] {f : List Node → Parser α}
    (h : ∀ nodes, Reads o base (acc ++ nodes) (f nodes)) :
    Reads o base acc (if P then (do f (← Pure.pure [← x])) else (do f (← Pure.pure []))) :=
  .ite (.read fun n => h [n]) (.absent (h []))

/-- Something that is passed if it is there. -/
theorem when {x : Parser Unit} [Passes x] {f : Unit → Parser α} (h : Reads o base acc (f ())) :
    Reads o base acc (if P then x >>= f else f ()) :=
  .ite (.skip fun _ => h) h

theorem otherwise {β : Type} {x : Parser β} [Passes x] (h : Reads o base acc p) :
    Reads o base acc (if P then p else x >>= fun _ => p) :=
  .ite h (.skip fun _ => h)

theorem refuse {f : Unit → Parser α} (h : Reads o base acc (f ())) :
    Reads o base acc (if P then Parser.fail >>= f else f ()) :=
  .ite .failBind h

theorem require {f : Unit → Parser α} (h : Reads o base acc (f ())) :
    Reads o base acc (if P then f () else Parser.fail >>= f) :=
  .ite h .failBind

end

/-- The order does not matter to a reader of one node. -/
theorem ofLoose {p : Parser Node} (h : Reads false base acc p) : Reads o base acc p := by
  constructor
  intro c n c' hc hbase hacc hrun
  obtain ⟨hc', hn⟩ := h.of_run hc hbase hacc.loosen hrun
  exact ⟨hc', hn.tidy, hn.within, fun _ => List.pairwise_singleton _ _⟩

theorem ofLooseOption {p : Parser (Option Node)} (h : Reads false base acc p) : Reads o base acc p := by
  constructor
  intro c found c' hc hbase hacc hrun
  obtain ⟨hc', hfound⟩ := h.of_run hc hbase hacc.loosen hrun
  refine ⟨hc', hfound.tidy, hfound.within, fun _ => ?_⟩
  cases found with
  | none => exact .nil
  | some n => exact List.pairwise_singleton _ _

theorem toLoose (h : Reads true base acc p) (hacc : acc = []) : Reads false base acc p := by
  constructor
  intro c a c' hc hbase _ hrun
  obtain ⟨hc', ha⟩ := h.of_run hc hbase (hacc ▸ .nil) hrun
  exact ⟨hc', ha.loosen⟩

theorem some {p : Parser Node} (h : Reads o base acc p) : Reads o base acc (do return some (← p)) :=
  h.last fun _ => .pure (.refl _)

theorem none : Reads o base acc (Pure.pure none : Parser (Option α)) :=
  .pure (List.nil_sublist acc)

/-! ### Nodes -/

variable {kind : Kind} {span : Span} {children : List Node}

theorem pureNode (hlo : g.Stops span.lo) (hkind : kind.keepsOrder = true) (hchildren : children.Sublist acc) :
    Reads true base acc (Pure.pure (Node.mk kind span children) : Parser Node) := by
  constructor
  intro c n c' hc hbase hacc hrun
  cases hrun
  refine ⟨⟨hc, Nat.le_refl _⟩, (hacc.sublist hchildren).node hlo ?_ ?_ ?_ hbase fun _ => rfl⟩
  · exact fun h => absurd h (Kind.ne_block_of_keepsOrder hkind)
  · exact fun h => absurd h (Kind.ne_templateText_of_keepsOrder hkind)
  · exact fun h => absurd h (Kind.ne_call_of_isLoose (Kind.isLoose_of_keepsOrder hkind))

/-- A node that has its parts in another order. A call begins where the first of them does. -/
theorem pureLooseNode (hlo : g.Stops span.lo) (hkind : kind.isLoose = true) (hcall : kind = .call → span.lo = base)
    (hchildren : children ⊆ acc) : Reads o base acc (Pure.pure (Node.mk kind span children) : Parser Node) := by
  refine .ofLoose ⟨?_⟩
  intro c n c' hc hbase hacc hrun
  cases hrun
  refine ⟨⟨hc, Nat.le_refl _⟩, ((hacc.subset hchildren).node hlo ?_ ?_ hcall hbase ?_).loosen⟩
  · rintro rfl
    contradiction
  · rintro rfl
    contradiction
  · exact fun h => absurd (hkind.symm.trans h) Bool.noConfusion

theorem node (hlo : g.Stops lo) (hkind : kind.keepsOrder = true) (hchildren : children.Sublist acc) :
    Reads true base acc (node kind lo children) :=
  ⟨fun hc hbase hacc hrun => (pureNode hlo hkind hchildren).of_run hc hbase hacc hrun⟩

theorem loose (hlo : g.Stops lo) (hkind : kind.isLoose = true) (hcall : kind = .call → lo = base)
    (hchildren : children ⊆ acc) : Reads o base acc (Parser.node kind lo children) :=
  ⟨fun hc hbase hacc hrun => (pureLooseNode hlo hkind hcall hchildren).of_run hc hbase hacc hrun⟩

/-- A block begins with its brace. -/
theorem block (hlo : g.Stops lo) (hopening : ∃ rest, g.Admits ⟨'\x7b' :: rest, lo⟩) :
    Reads true base acc (Parser.node .block lo acc) := by
  constructor
  intro c n c' hc hbase hacc hrun
  cases hrun
  exact ⟨⟨hc, Nat.le_refl _⟩, hacc.node hlo (fun _ => hopening) nofun nofun hbase fun _ => rfl⟩

end Reads

/-- A node without parts. -/
theorem reader_emptyNode {kind : Kind} (hlo : g.Stops lo) (hkind : kind.keepsOrder = true) :
    Reader true (node kind lo []) :=
  ⟨fun _ => .node hlo hkind (.refl _)⟩

/-! ### Tokens -/

instance passes_token : Passes token := passes_of_keeps fun _ => token_spec
instance passes_here : Passes here := passes_of_keeps fun _ => here_spec
instance passes_newlineBefore : Passes newlineBefore := passes_of_keeps fun _ => newlineBefore_spec
instance passes_peek : Passes peek := passes_of_keeps fun _ => peek_spec
instance passes_isMark (m : Mark) : Passes (isMark m) := passes_of_keeps fun _ => isMark_spec m
instance passes_takeMark (m : Mark) : Passes (takeMark m) := passes_of_keeps fun _ => takeMark_spec m
instance passes_expectMark (m : Mark) : Passes (expectMark m) := passes_of_keeps fun _ => expectMark_spec m
instance passes_requireMark (m : Mark) : Passes (requireMark m) := passes_of_keeps fun _ => requireMark_spec m
instance passes_isWord (word : String) : Passes (isWord word) := passes_of_keeps fun _ => isWord_spec word
instance passes_takeWord (word : String) : Passes (takeWord word) := passes_of_keeps fun _ => takeWord_spec word
instance passes_expectWord (word : String) : Passes (expectWord word) :=
  passes_of_keeps fun _ => expectWord_spec word
instance passes_anyName : Passes anyName := passes_of_keeps fun _ => anyName_spec
instance passes_isIdentifier : Passes isIdentifier := passes_of_keeps fun _ => isIdentifier_spec
instance passes_identifier : Passes identifier := passes_of_keeps fun _ => identifier_spec
instance passes_canEnd : Passes canEnd := passes_of_keeps fun _ => canEnd_spec
instance passes_semicolon : Passes semicolon := passes_of_keeps fun _ => semicolon_spec
instance passes_looksLike {α : Type} (p : Parser α) : Passes (looksLike p) :=
  passes_of_keeps fun _ => looksLike_spec p
instance passes_attempt {α : Type} {p : Parser α} [h : Passes p] : Passes (attempt p) := by
  constructor
  intro c found c' hc hrun
  rw [attempt] at hrun
  split at hrun
  · next hp =>
      cases hrun
      exact h.of_run hc hp
  · cases hrun
    exact ⟨hc, Nat.le_refl _⟩

instance passes_get : Passes (get : Parser Cursor) := by
  constructor
  intro c a c' hc hrun
  cases hrun
  exact ⟨hc, Nat.le_refl _⟩

omit g in
theorem le_movedTo {c : Cursor} {p : Place} (h : c.token.span.lo ≤ p.offset) :
    c.token.span.lo ≤ (c.movedTo p).token.span.lo :=
  Nat.le_trans h (le_skipBlanks .outside false p.rest p.offset)

instance passes_bump : Passes bump := by
  constructor
  intro c a c' hc hrun
  cases hrun
  exact ⟨Cursor.behind_movedTo hc.after, le_movedTo hc.reaches.le⟩

/-- What `Reads` says of one cursor. -/
def ReadsAt (o : Bool) (base : Nat) (acc : List Node) (c : Cursor) (p : Parser α) : Prop :=
  base ≤ c.token.span.lo → Gathered o base c.token.span.lo acc → ∀ a c', p c = .ok (a, c') →
    (c'.Behind g ∧ c.token.span.lo ≤ c'.token.span.lo) ∧ Gathered o base c'.token.span.lo (parts a)

namespace ReadsAt

variable {p : Parser α} {c : Cursor}

theorem of_reads (h : Reads o base acc p) (hc : c.Behind g) : ReadsAt o base acc c p :=
  fun hbase hacc _ _ hrun => h.of_run hc hbase hacc hrun

theorem set {f : Unit → Parser α} {next : Cursor} (hnext : next.Behind g)
    (hle : c.token.span.lo ≤ next.token.span.lo) (h : Reads o base acc (f ())) :
    ReadsAt o base acc c (set next >>= f) := by
  intro hbase hacc a c' hrun
  obtain ⟨⟨hc', hle'⟩, ha⟩ := h.of_run hnext (Nat.le_trans hbase hle) (hacc.widen hle) hrun
  exact ⟨⟨hc', Nat.le_trans hle hle'⟩, ha⟩

/-- A reader that goes on at a place that stands behind every gap that it is behind. -/
theorem moveTo {f : Unit → Parser α} {place : Place} (hc : c.Behind g) (hadmits : ∀ g, c.Behind g → g.Admits place)
    (h : Reads o base acc (f ())) : ReadsAt o base acc c (moveTo place >>= f) := by
  have hle := le_movedTo (c := c) (hadmits _ hc.behind_tail)
  have hmoved := set (f := f) (Cursor.behind_movedTo (hadmits g hc)) hle h
  exact hmoved

/-- A look at the current token. -/
theorem look {β : Type} {x : Parser β} {f : β → Parser α} {b : β} (hx : x c = .ok (b, c))
    (h : ReadsAt o base acc c (f b)) : ReadsAt o base acc c (x >>= f) := by
  intro hbase hacc a c' hrun
  rw [run_bind_of_ok hx] at hrun
  exact h hbase hacc a c' hrun

end ReadsAt

theorem Reads.atCursor {f : Cursor → Parser α} (h : ∀ c : Cursor, c.Behind g → ReadsAt o base acc c (f c)) :
    Reads o base acc (get >>= f) :=
  ⟨fun hc hbase hacc hrun => h _ hc hbase hacc _ _ hrun⟩

omit g in
theorem kind_of_expectMark {m : Mark} {c c' : Cursor} (h : expectMark m c = .ok ((), c')) :
    c.token.kind = .mark m := by
  by_contra hkind
  have hmark : (c.token.kind == .mark m) = false := beq_false_of_ne hkind
  simp [expectMark, takeMark, run_bind, hmark] at h

/-- A name, which holds no calls, if one stands here. -/
theorem Reads.named {P : Prop} [Decidable P] {f : List Node → Parser α}
    (h : ∀ name, (∀ o lo hi, Gathered o lo hi name) → Reads o base acc (f name)) :
    Reads o base acc (if P then (do
      let t ← Parser.token
      let text ← identifier
      f (← Pure.pure [Node.leaf (.binding text) t.span])) else (do f (← Pure.pure []))) := by
  refine .ite (.token fun t hlo => .skip fun text => ?_) (h [] fun _ _ _ => .nil)
  exact h _ fun _ _ _ => .leaf hlo nofun nofun

/-- Where nothing is found, the reader goes back. -/
theorem reads_retry {x : Parser (Option Node)} [hx : Reader o x] : Reads o base [] (do
    let c ← get
    bump
    match ← x with
    | some e => return some e
    | none =>
      set c
      return none : Parser (Option Node)) := by
  constructor
  intro c found c' hc hbase hacc hrun
  obtain ⟨c₀, c₁, hget, hrun⟩ := bind_eq_ok.mp hrun
  cases hget
  obtain ⟨_, c₁, hbump, hrun⟩ := bind_eq_ok.mp hrun
  obtain ⟨hc₁, hle⟩ := passes_bump.of_run hc hbump
  obtain ⟨found', c₂, hfound, hrun⟩ := bind_eq_ok.mp hrun
  cases found' with
  | none =>
      cases hrun
      exact ⟨⟨hc, Nat.le_refl _⟩, .nil⟩
  | some e =>
      cases hrun
      obtain ⟨⟨hc', hle'⟩, he⟩ := (hx.reads base).of_run hc₁ (Nat.le_trans hbase hle) .nil hfound
      exact ⟨⟨hc', Nat.le_trans hle hle'⟩, he⟩

/-! ### Leaves -/

theorem reader_leaf {kind : Kind} (hkind : kind.keepsOrder = true) : Reader o (leaf kind) := by
  refine ⟨fun base => ⟨?_⟩⟩
  intro c n c' hc hbase hacc hrun
  have hpassed := passes_bump.of_run hc (rfl : bump c = .ok ((), c.movedTo c.after))
  cases hrun
  exact ⟨hpassed, .leaf hc.stops_lo (Kind.ne_block_of_keepsOrder hkind)
    (Kind.ne_call_of_isLoose (Kind.isLoose_of_keepsOrder hkind))⟩

instance reader_hole : Reader o hole := by
  refine ⟨fun base => ⟨?_⟩⟩
  intro c n c' hc hbase hacc hrun
  cases hrun
  exact ⟨⟨hc, Nat.le_refl _⟩, .leaf hc.stops_lo nofun nofun⟩

/-! ### Repetition -/

instance (priority := low) reader_loosen {p : Parser α} [h : Reader true p] : Reader false p :=
  ⟨fun base => (h.reads base).toLoose rfl⟩

theorem Reader.attempt {p : Parser α} (h : Reader o p) : Reader o (attempt p) :=
  ⟨fun base => (h.reads base).attempt⟩

instance reader_attempt {p : Parser α} [h : Reader o p] : Reader o (attempt p) :=
  h.attempt

theorem Reads.withFlags {p : Parser α} (h : Reads o base acc p) (change : Flags → Flags) :
    Reads o base acc (withFlags change p) := by
  constructor
  intro c a c' hc hbase hacc hrun
  obtain ⟨after, hp, rfl⟩ := exists_of_withFlags hrun
  obtain ⟨⟨hafter, hle⟩, ha⟩ := h.of_run (hc.withFlags (change c.flags)) hbase hacc hp
  exact ⟨⟨hafter.withFlags _, hle⟩, ha⟩

instance reader_ite {P : Prop} [Decidable P] {p q : Parser α} [Reader o p] [Reader o q] :
    Reader o (if P then p else q) :=
  ⟨fun _ => .ite .only .only⟩

instance reader_pure_nil : Reader o (pure [] : Parser (List Node)) :=
  ⟨fun _ => .pure (.refl _)⟩

instance reader_withFlags {p : Parser α} [h : Reader o p] (change : Flags → Flags) :
    Reader o (withFlags change p) :=
  ⟨fun base => (h.reads base).withFlags change⟩

instance passes_withFlags {α : Type} {p : Parser α} [h : Passes p] (change : Flags → Flags) :
    Passes (withFlags change p) := by
  constructor
  intro c a c' hc hrun
  obtain ⟨after, hp, rfl⟩ := exists_of_withFlags hrun
  obtain ⟨hafter, hle⟩ := h.of_run (hc.withFlags (change c.flags)) hp
  exact ⟨hafter.withFlags _, hle⟩

instance passes_bracketed {α : Type} {p : Parser α} [Passes p] : Passes (bracketed p) :=
  passes_withFlags _

theorem Reader.bracketed {p : Parser α} (h : Reader o p) : Reader o (bracketed p) :=
  reader_withFlags _

instance reader_bracketed {p : Parser α} [h : Reader o p] : Reader o (bracketed p) :=
  h.bracketed

/-- What one step gathers and keeps, many steps do. -/
theorem gathered_loop {step : Parser (Option α)} {I : Cursor → Prop}
    (h : ∀ c found c', I c → step c = .ok (found, c') → (I c' ∧ c.token.span.lo ≤ c'.token.span.lo) ∧
      Gathered o c.token.span.lo c'.token.span.lo (parts found)) {fuel : Nat} {c c' : Cursor}
    {items : List α} (hc : I c) (hrun : many.loop step fuel c = .ok (items, c')) :
    (I c' ∧ c.token.span.lo ≤ c'.token.span.lo) ∧
      Gathered o c.token.span.lo c'.token.span.lo (items.flatMap parts) := by
  induction fuel generalizing c items with
  | zero => contradiction
  | succ fuel ih =>
      obtain ⟨found, c₁, hfound, hrest⟩ := exists_of_loop hrun
      obtain ⟨⟨hc₁, hle⟩, hparts⟩ := h c found c₁ hc hfound
      cases found with
      | none =>
          obtain ⟨rfl, rfl⟩ := hrest
          exact ⟨⟨hc₁, hle⟩, .nil⟩
      | some a =>
          obtain ⟨rest, hloop, rfl⟩ := hrest
          obtain ⟨⟨hc', hle'⟩, hitems⟩ := ih hc₁ hloop
          exact ⟨⟨hc', Nat.le_trans hle hle'⟩, hparts.append hitems hle hle'⟩

theorem reader_many_of_parts {step : Parser (Option α)} [HasParts (List α)] (h : Reader o step)
    (hparts : ∀ items : List α, parts items = items.flatMap parts) : Reader o (many step) := by
  refine ⟨fun base => ⟨?_⟩⟩
  intro c items c' hc hbase hacc hrun
  obtain ⟨hc', hitems⟩ := gathered_loop
    (fun c found c' hc hrun => ⟨h.passes.of_run hc hrun, h.gathered hc hrun⟩) hc hrun
  rw [hparts]
  exact ⟨hc', hitems.lower hbase⟩

theorem reader_many {step : Parser (Option Node)} (h : Reader o step) : Reader o (many step) :=
  reader_many_of_parts h fun items => (List.flatMap_singleton' items).symm

theorem passes_loop {α : Type} {step : Parser (Option α)} [Passes step] (fuel : Nat) :
    Passes (many.loop step fuel) := by
  induction fuel with
  | zero => exact passes_fail
  | succ fuel ih =>
      have hfound (found : Option α) : Passes (match found with
          | none => return []
          | some a => do
            let rest ← many.loop step fuel
            return a :: rest : Parser (List α)) := by
        cases found with
        | none => exact passes_pure []
        | some a => exact passes_bind
      exact passes_bind

instance passes_many {α : Type} {step : Parser (Option α)} [Passes step] : Passes (many step) :=
  ⟨fun hc hrun => (passes_loop _).of_run hc hrun⟩

theorem reads_extending_loop {first : α} {step : α → Parser (Option α)} (P : α → Prop)
    (h : ∀ a, P a → Reads o base (parts a) (step a))
    (hP : ∀ a c b c', P a → step a c = .ok (some b, c') → P b) (hfirst : P first) (fuel : Nat) :
    Reads o base (parts first) (extending.loop step fuel first) := by
  induction fuel generalizing first with
  | zero => exact .fail
  | succ fuel ih =>
      constructor
      intro c a c' hc hbase hacc hrun
      obtain ⟨found, c₁, hfound, hrun⟩ := bind_eq_ok.mp hrun
      obtain ⟨⟨hc₁, hle⟩, hparts⟩ := (h first hfirst).of_run hc hbase hacc hfound
      cases found with
      | none =>
          cases hrun
          exact ⟨⟨hc₁, hle⟩, hacc.widen hle⟩
      | some b =>
          obtain ⟨⟨hc', hle'⟩, ha⟩ :=
            (ih (hP first c b c₁ hfirst hfound)).of_run hc₁ (Nat.le_trans hbase hle) hparts hrun
          exact ⟨⟨hc', Nat.le_trans hle hle'⟩, ha⟩

/-- A result that is extended step by step; `P` is kept by the steps. -/
theorem Reads.extending {first : α} {step : α → Parser (Option α)} (P : α → Prop)
    (h : ∀ a, P a → Reads o base (parts a) (step a))
    (hP : ∀ a c b c', P a → step a c = .ok (Option.some b, c') → P b) (hfirst : P first) :
    Reads o base (parts first) (extending first step) :=
  ⟨fun hc hbase hacc hrun => (reads_extending_loop P h hP hfirst _).of_run hc hbase hacc hrun⟩

instance passes_commaList {α : Type} {close : Mark} {item : Parser α} [Passes item] :
    Passes (commaList close item) :=
  inferInstanceAs (Passes (many _ >>= fun _ => expectMark close >>= fun _ => pure _))

instance reader_commaList {close : Mark} {item : Parser Node} [h : Reader o item] :
    Reader o (commaList close item) := by
  refine ⟨fun base => .bind (reader_many ⟨fun base => ?_⟩) fun items => .skip fun _ => .pure (.refl _)⟩
  refine .skip fun _ => .ite .none (.read fun a => .skip fun _ => .ite ?_ ?_)
  · exact .pure (.refl _)
  · exact .skip fun _ => .pure (.refl _)

/-! ### Templates -/

/-- Between the pieces of a template: the current token may be the mark that a text ended with. -/
def InTemplate (c : Cursor) : Prop :=
  c.Ahead g ∧ c.token.span.lo ≤ c.after.offset

theorem InTemplate.of_behind {c : Cursor} (h : c.Behind g) : InTemplate c :=
  ⟨h.toAhead, h.reaches.le⟩

theorem gathered_template_piece {tagged : Bool} {substitution : Parser Node} (h : Reader o substitution)
    {c c' : Cursor} {found : Option Node} (hc : InTemplate c)
    (hrun : template.piece tagged substitution c = .ok (found, c')) :
    (InTemplate c' ∧ c.token.span.lo ≤ c'.token.span.lo) ∧
      Gathered o c.token.span.lo c'.token.span.lo (parts found) := by
  unfold template.piece at hrun
  obtain ⟨c₀, c₁, hget, hrun⟩ := bind_eq_ok.mp hrun
  cases hget
  split at hrun
  · -- A substitution is read behind its brace.
    have hmoved : (c.movedTo c.after).Behind g := Cursor.behind_movedTo hc.1.after
    have hbehind : Reads o (c.movedTo c.after).token.span.lo [] (do
        let e ← bracketed substitution
        unless ← isMark .rightBrace do Parser.fail
        return Option.some e : Parser (Option Node)) :=
      .read fun e => .skip fun _ => .ite (.pure (.refl _)) .failBind
    obtain ⟨⟨hc', hle⟩, hfound⟩ := hbehind.of_run hmoved (Nat.le_refl _) .nil hrun
    have hstart := le_movedTo hc.2
    exact ⟨⟨.of_behind hc', Nat.le_trans hstart hle⟩, hfound.lower hstart⟩
  · split at hrun
    · cases hrun
      exact ⟨⟨hc, Nat.le_refl _⟩, .nil⟩
    · cases hscan : scanTemplate [] false c.after.rest c.after.offset with
      | none =>
          rw [hscan] at hrun
          contradiction
      | some scanned =>
          obtain ⟨text, how, after⟩ := scanned
          rw [hscan] at hrun
          dsimp only at hrun
          split at hrun
          · obtain ⟨stop, hstop, henters, hend⟩ := enters_scanTemplate hscan
            have hle : c.after.offset ≤ stop.offset := hstop.reaches.le
            have hafter := g.admits (g.admits hc.1.after hstop) henters
            have hnext := hc.1.le_after
            have hstops := g.stops hc.1.after
            cases how with
            | backtick =>
                have hend : after.offset = stop.offset + 1 := hend
                have hlo : c.after.offset ≤ after.offset := by omega
                cases hrun
                exact ⟨⟨⟨ahead_template hc.1 (Nat.le_trans hnext hlo) hafter, Nat.le_refl _⟩,
                  Nat.le_trans hc.2 hlo⟩, .leaf hstops nofun nofun⟩
            | substitution =>
                have hend : after.offset = stop.offset + 2 := hend
                have hlo : c.after.offset ≤ after.offset - 1 := by omega
                cases hrun
                exact ⟨⟨⟨ahead_template hc.1 (Nat.le_trans hnext hlo) hafter, Nat.sub_le _ _⟩,
                  Nat.le_trans hc.2 hlo⟩, .leaf hstops nofun nofun⟩
          · contradiction

/-- The texts of a template hold no calls, so that they may stand behind the substitutions. -/
theorem gathered_template {lo hi : Nat} {pieces : List Node} (h : Gathered o lo hi pieces) :
    Gathered o lo hi ((pieces.filter fun n => !(n.kind == .templateText)) ++
      pieces.filter fun n => n.kind == .templateText) := by
  have htexts : ∀ n ∈ pieces.filter fun n => n.kind == .templateText, n.callStarts = [] := by
    intro n hn
    obtain ⟨hmem, hkind⟩ := List.mem_filter.mp hn
    have hchildren := (h.tidy n hmem).text (by simpa using hkind)
    obtain ⟨kind, span, children⟩ := n
    obtain rfl : kind = .templateText := by simpa [Node.kind] using hkind
    obtain rfl : children = [] := hchildren
    exact Node.callStarts_leaf (show Kind.templateText ≠ .call from nofun) span
  have hvalues := h.sublist (List.filter_sublist (p := fun n => !(n.kind == .templateText)))
  have hrest := h.sublist (List.filter_sublist (p := fun n => n.kind == .templateText))
  refine ⟨List.forall_mem_append.mpr ⟨hvalues.tidy, hrest.tidy⟩,
    List.forall_mem_append.mpr ⟨hvalues.within, hrest.within⟩, fun ho => ?_⟩
  refine List.pairwise_append.mpr ⟨hvalues.inOrder ho, hrest.inOrder ho, fun a _ b hb s _ t ht => ?_⟩
  rw [htexts b hb] at ht
  contradiction

instance reader_template {tagged : Bool} {substitution : Parser Node} [h : Reader o substitution] :
    Reader o (template tagged substitution) := by
  refine ⟨fun base => ⟨?_⟩⟩
  intro c r c' hc hbase hacc hrun
  obtain ⟨pieces, c₁, hpieces, hrun⟩ := bind_eq_ok.mp hrun
  obtain ⟨⟨hc₁, hle⟩, hgathered⟩ := gathered_loop
    (fun c found c' hc hrun => gathered_template_piece h hc hrun) (.of_behind hc) hpieces
  rw [show pieces.flatMap parts = pieces from List.flatMap_singleton' pieces] at hgathered
  cases hrun
  have hmoved := le_movedTo hc₁.2
  refine ⟨⟨Cursor.behind_movedTo hc₁.1.after, Nat.le_trans hle hmoved⟩, ?_⟩
  exact ((gathered_template hgathered).lower hbase).widen hmoved

end Localization.Source.Parser
