import Localization.Proofs.Source.Grammar.Run
import Localization.Proofs.Source.Order.Operand

/-!
Expressions are in the order of the text; a type in front of its operand is stored behind it. An operand
begins at its first token, also with the accesses and calls behind it. This is known of no construct in general:
a class begins in front of its decorators, or behind them where it is exported.
-/

/-! ## Where operands begin -/

namespace Localization.Source.Parser

variable {α β : Type} {Q : α → Prop} {kind : Kind} {items : List Node} {p q : Parser Node} {c : Cursor}
  {lo : Nat} {self : Goal → Parser Node}

/-- Whatever a reader gives is of one kind. -/
structure Yields (Q : α → Prop) (p : Parser α) : Prop where
  of_run : ∀ {c a c'}, p c = .ok (a, c') → Q a

/-- A reader at a cursor gives a node that begins there. -/
structure BeginsAt (c : Cursor) (p : Parser Node) : Prop where
  of_run : ∀ {n c'}, p c = .ok (n, c') → n.span.lo = c.token.span.lo

/-- The elements that a reader of operands refers to begin at their tags. -/
class BeginsElements (self : Goal → Parser Node) : Prop where
  begins : ∀ c, BeginsAt c (self .element)

namespace Yields

theorem bind {x : Parser β} {f : β → Parser α} (h : ∀ b, Yields Q (f b)) : Yields Q (x >>= f) := by
  constructor
  intro c a c' hrun
  obtain ⟨b, c₁, -, hrun⟩ := bind_eq_ok.mp hrun
  exact (h b).of_run hrun

/-- What is known of a result is known of the rest. -/
theorem passing {P : β → Prop} {x : Parser β} {f : β → Parser α} (hx : Yields P x)
    (h : ∀ b, P b → Yields Q (f b)) : Yields Q (x >>= f) := by
  constructor
  intro c a c' hrun
  obtain ⟨b, c₁, hb, hrun⟩ := bind_eq_ok.mp hrun
  exact (h b (hx.of_run hb)).of_run hrun

theorem withFlags {p : Parser α} {change : Flags → Flags} (h : Yields Q p) : Yields Q (withFlags change p) := by
  constructor
  intro c a c' hrun
  obtain ⟨after, hp, -⟩ := exists_of_withFlags hrun
  exact h.of_run hp

theorem ite {P : Prop} [Decidable P] {p q : Parser α} (hp : Yields Q p) (hq : Yields Q q) :
    Yields Q (if P then p else q) := by
  split
  · exact hp
  · exact hq

theorem fail : Yields Q (fail : Parser α) :=
  ⟨fun hrun => by cases hrun⟩

theorem failBind {f : β → Parser α} : Yields Q (Parser.fail >>= f) :=
  ⟨fun hrun => by cases hrun⟩

theorem pure {a : α} (h : Q a) : Yields Q (Pure.pure a : Parser α) := by
  constructor
  intro c a' c' hrun
  cases hrun
  exact h

theorem made {Q : Node → Prop} (h : ∀ hi, Q (.mk kind ⟨lo, hi⟩ items)) : Yields Q (node kind lo items) := by
  constructor
  intro c n c' hrun
  cases hrun
  exact h _

theorem node : Yields (·.span.lo = lo) (node kind lo items) :=
  made fun _ => rfl

theorem nodeThrough : Yields (·.span.lo = lo) (nodeThrough kind lo items) :=
  .bind fun _ => .pure rfl

theorem some {p : Parser Node} (h : Yields (·.span.lo = lo) p) :
    Yields (fun found : Option Node => ∀ n ∈ found, n.span.lo = lo) (do return some (← p)) := by
  constructor
  intro c found c' hrun
  obtain ⟨n, c₁, hn, hrun⟩ := bind_eq_ok.mp hrun
  cases hrun
  intro m hm
  obtain rfl := Option.some.inj hm
  exact h.of_run hn

theorem none : Yields (fun found : Option Node => ∀ n ∈ found, n.span.lo = lo) (Pure.pure none : Parser _) :=
  .pure nofun

end Yields

namespace BeginsAt

theorem of_yields (h : Yields (·.span.lo = c.token.span.lo) p) : BeginsAt c p :=
  ⟨fun hrun => h.of_run hrun⟩

theorem ite {P : Prop} [Decidable P] (hp : BeginsAt c p) (hq : BeginsAt c q) :
    BeginsAt c (if P then p else q) := by
  split
  · exact hp
  · exact hq

theorem bind {x : Parser Node} {f : Node → Parser Node} (hx : BeginsAt c x)
    (h : ∀ n, n.span.lo = c.token.span.lo → Yields (·.span.lo = c.token.span.lo) (f n)) :
    BeginsAt c (x >>= f) := by
  constructor
  intro n c' hrun
  obtain ⟨m, c₁, hm, hrun⟩ := bind_eq_ok.mp hrun
  exact (h m (hx.of_run hm)).of_run hrun

/-- A look at the current token. -/
theorem look {x : Parser β} {f : β → Parser Node} {b : β} (hx : x c = .ok (b, c)) (h : BeginsAt c (f b)) :
    BeginsAt c (x >>= f) := by
  constructor
  intro n c' hrun
  rw [run_bind_of_ok hx] at hrun
  exact h.of_run hrun

theorem leaf : BeginsAt c (leaf kind) := by
  constructor
  intro n c' hrun
  cases hrun
  rfl

end BeginsAt

theorem beginsAt_jsxElement : BeginsAt c (jsxElement self) := by
  refine .look rfl (.of_yields (.bind fun _ => .bind fun _ => .ite ?_ ?_))
  · refine .bind fun _ => .bind fun _ => .bind fun _ => .bind fun _ => .bind fun _ => .bind fun _ => .bind fun _ => ?_
    exact .nodeThrough
  · have hrest (name : String) (nameNode : Node) (types : List Node) :
        Yields (·.span.lo = c.token.span.lo) (do
          let values ← tagAttributes self
          if ← takeMark .slash then
            requireMark .greater
            let opening ← nodeThrough .jsxOpening c.token.span.lo (nameNode :: values ++ types)
            nodeThrough .jsxElement c.token.span.lo [opening]
          else
            let opening ← nodeThrough .jsxOpening c.token.span.lo (nameNode :: values ++ types)
            let inner ← children self
            let closingLo ← here
            expectMark .less
            expectMark .slash
            unless (← tagName) == name do Parser.fail
            requireMark .greater
            let closing ← nodeThrough .jsxClosing closingLo []
            nodeThrough .jsxElement c.token.span.lo (opening :: inner ++ [closing])) := by
      refine .bind fun _ => .bind fun _ => .ite (.bind fun _ => .bind fun _ => .nodeThrough) ?_
      refine .bind fun _ => .bind fun _ => .bind fun _ => .bind fun _ => .bind fun _ => .bind fun _ => ?_
      exact .ite (.bind fun _ => .bind fun _ => .nodeThrough) .failBind
    refine .bind fun _ => .bind fun name => .bind fun nameNode => .bind fun _ => .ite (.bind fun types => ?_) ?_
    · exact hrest name nameNode [types]
    · exact hrest name nameNode []

theorem beginsAt_importExpression : BeginsAt c (importExpression self) := by
  have hcall (keyword : Node) :
      Yields (·.span.lo = c.token.span.lo) (importExpression.call self c.token.span.lo keyword) :=
    .bind fun _ => .ite .failBind .node
  refine .look rfl (.of_yields (.bind fun _ => .bind fun keyword => .bind fun _ => .ite ?_ (hcall keyword)))
  refine .bind fun _ => .ite .node (.bind fun _ => .bind fun _ => .ite (hcall keyword) .failBind)

theorem beginsAt_superExpression : BeginsAt c (superExpression self) := by
  refine .look rfl (.of_yields (.bind fun _ => .bind fun keyword => .bind fun _ => .bind fun _ => .ite ?_ ?_))
  · exact .bind fun _ => .node
  · refine .bind fun _ => .ite (.bind fun _ => .bind fun _ => .bind fun _ => .node) ?_
    exact .bind fun _ => .node

theorem beginsAt_newExpression : BeginsAt c (newExpression self) := by
  have hrest (callee : Node) (types : List Node) : Yields (·.span.lo = c.token.span.lo) (do
      let args ← if ← isMark .leftParen then callArguments self else pure []
      node .newCall c.token.span.lo (callee :: args ++ types)) :=
    .bind fun _ => .ite (.bind fun _ => .node) .node
  refine .look rfl (.of_yields (.bind fun _ => .bind fun _ => .ite (.bind fun _ => .node) ?_))
  refine .bind fun callee => .bind fun _ => .ite .failBind (.bind fun _ => .ite (.bind fun found => ?_) ?_)
  · exact hrest callee found.toList
  · exact hrest callee []

theorem beginsAt_regularExpression : BeginsAt c regularExpression := by
  refine .look rfl (.of_yields ?_)
  split
  · exact .fail
  · exact .bind fun _ => .node

theorem beginsAt_primary [BeginsElements self] : BeginsAt c (primary self) := by
  refine .look rfl ?_
  have hidentifier : BeginsAt c (primary.identifierNode c.token.span.lo) :=
    .of_yields (.bind fun _ => .node)
  dsimp only
  split
  · exact .leaf
  · exact .leaf
  · exact .leaf
  · exact .bind .leaf fun n hn => .bind fun _ => .ite (.pure hn) .fail
  · exact .look rfl (.of_yields (.bind fun _ => .bind fun _ => .node))
  · exact beginsAt_regularExpression
  · exact .of_yields (.bind fun _ => .bind fun _ => .bind fun _ => .node)
  · exact .of_yields (.bind fun _ => .bind fun _ => .node)
  · exact .of_yields (.bind fun _ => .bind fun _ => .node)
  · refine .look rfl (.ite ?_ (.of_yields .failBind))
    exact .bind (BeginsElements.begins c) fun n hn => .bind fun _ => .pure hn
  · exact .of_yields (.bind fun _ => .bind fun _ => .node)
  · refine .ite hidentifier (.ite .leaf (.ite .leaf (.ite ?_ (.ite ?_ (.ite ?_ (.ite ?_ (.ite ?_ ?_)))))))
    · exact .of_yields (.bind fun _ => .node)
    · exact .of_yields (.bind fun _ => .node)
    · exact beginsAt_newExpression
    · exact beginsAt_superExpression
    · exact beginsAt_importExpression
    · refine .ite (.look rfl (.ite ?_ hidentifier)) hidentifier
      exact .of_yields (.bind fun _ => .bind fun _ => .node)
  · exact .of_yields .fail

variable {e : Node} {calls : Bool}

theorem yields_optionalAccess : Yields (·.span.lo = lo) (optionalAccess self lo e) := by
  refine .bind fun _ => .bind fun _ => .ite (.bind fun _ => .node) (.bind fun _ => .ite ?_ ?_)
  · exact .bind fun _ => .bind fun _ => .node
  · refine .bind fun _ => .ite (.bind fun _ => .bind fun _ => .bind fun _ => .node) ?_
    exact .bind fun _ => .node

/-- An access or a call begins where the expression in front of it does. -/
theorem yields_access? :
    Yields (fun found => ∀ n ∈ found, n.span.lo = e.span.lo) (access? self calls e) := by
  refine .bind fun t => ?_
  split
  · exact .bind fun _ => .bind fun _ => .some .node
  · exact .ite (.bind fun _ => .some yields_optionalAccess) .none
  · exact .bind fun _ => .bind fun _ => .bind fun _ => .bind fun _ => .bind fun _ => .some .node
  · exact .bind fun _ => .ite .none (.bind fun _ => .some .node)
  · exact .ite (.bind fun _ => .some .node) .none
  · exact .bind fun _ => .some .node
  · refine .bind fun found => ?_
    cases found with
    | none => exact .none
    | some types =>
        refine .bind fun _ => .ite (.bind fun _ => .some .node) (.bind fun _ => .ite ?_ (.some .node))
        exact .bind fun _ => .some .node
  · exact .none

instance beginsElements_construct (depth : Nat) : BeginsElements (fun goal => construct depth goal) where
  begins c := by
    cases depth with
    | zero => exact .of_yields .fail
    | succ depth => exact beginsAt_jsxElement

end Localization.Source.Parser

/-! ## Expressions -/

namespace Localization.Source.Parser

variable {self : Goal → Parser Node} [g : Gap] [ReadsParts self] [∀ goal, Reader true (self goal)]
  {base lo : Nat} {e first test : Node}

/-- What is read behind a node goes on where that node begins. -/
theorem Reads.firstly {α : Type} [HasParts α] {x : Parser Node} {f : Node → Parser α} [hx : Reader true x]
    (hbegins : ∀ c, BeginsAt c x)
    (h : ∀ n, g.Stops n.span.lo → Reads true n.span.lo [n] (f n)) : Reads true base [] (x >>= f) := by
  constructor
  intro c a c' hc hbase hacc hrun
  obtain ⟨n, c₁, hn, hrun⟩ := bind_eq_ok.mp hrun
  obtain ⟨hc₁, hle⟩ := hx.passes.of_run hc hn
  have hlo : n.span.lo = c.token.span.lo := (hbegins c).of_run hn
  have hgathered := hx.gathered hc hn
  obtain ⟨⟨hc', hle'⟩, ha⟩ := (h n (hlo ▸ hc.stops_lo)).of_run hc₁ (hlo ▸ hle) (hlo ▸ hgathered) hrun
  exact ⟨⟨hc', Nat.le_trans hle hle'⟩, ha.lower (hlo ▸ hbase)⟩

instance reader_operand [BeginsElements self] (calls : Bool) : Reader true (operand self calls) := by
  refine ⟨fun base => .firstly (fun c => beginsAt_primary) fun first hlo => ?_⟩
  refine .extending (fun e => e.span.lo = first.span.lo) (fun e he => reads_access? calls hlo he) ?_ rfl
  exact fun e c n c' he hrun => (yields_access?.of_run hrun n rfl).trans he

/-! ### Operators applied -/

instance reader_postfixExpression : Reader true (postfixExpression self) := by
  refine ⟨fun base => .here fun lo hlo => .read fun e => .skip fun _ => .skip fun _ => .skip fun _ => .ite ?_ ?_⟩
  · exact .skip fun _ => .node hlo rfl (.refl _)
  · exact .pure (.refl _)

instance reader_awaitExpression : Reader true (awaitExpression self) := by
  refine ⟨fun base => .here fun lo hlo => .skip fun _ => .skip fun _ => .ite (.node hlo rfl (.refl _)) ?_⟩
  exact .read fun e => .node hlo rfl (.refl _)

instance reader_unaryExpression : Reader true (unaryExpression self) := by
  refine ⟨fun base => .token fun t hlo => ?_⟩
  have hoperator {kind : Kind} (hkind : kind.keepsOrder = true) : Reads true base [] (do
      bump
      let e ← self .unary
      node kind t.span.lo [e]) :=
    .skip fun _ => .read fun e => .node hlo hkind (.refl _)
  dsimp only
  split
  · exact hoperator rfl
  · exact hoperator rfl
  · exact hoperator rfl
  · exact hoperator rfl
  · exact hoperator rfl
  · exact hoperator rfl
  · exact hoperator rfl
  · exact hoperator rfl
  · exact hoperator rfl
  · exact .only
  · refine .skip fun c => .ite .only (.skip fun _ => .read fun type => .skip fun _ => .read fun e => ?_)
    exact .loose hlo rfl nofun (by grind)
  · exact .only

omit [ReadsParts self] in
theorem reads_joined {right : Nat → Parser Node} [∀ precedence, Reader true (right precedence)] {least : Nat}
    (hlo : g.Stops lo) : Reads true base [first] (joined self right least lo first) := by
  refine .extending (fun _ => True) (fun left _ => .atCursor fun c hc => ?_) (fun _ _ _ _ _ _ => trivial) trivial
  split
  · next precedence fromRight after hop =>
    split
    · exact .of_reads .none hc
    · have hright : Reads true base [left] (do
          let second ← right (if fromRight then precedence else precedence + 1)
          return some (← node .binary lo [left, second])) :=
        .read fun second => .some (.node hlo rfl (.refl _))
      dsimp only
      split
      · exact .of_reads .failBind hc
      · exact .moveTo hc (fun g hc => Cursor.admits_of_operator? hop hc) hright
  · next after hop =>
    split
    · exact .of_reads .none hc
    · refine .look rfl (.moveTo hc (fun g hc => Cursor.admits_of_operator? hop hc) (.skip fun _ => .ite ?_ ?_))
      · exact .some (.node hlo rfl (.refl _))
      · refine .read fun type => .some (.node hlo ?_ (.refl _))
        split <;> rfl
  · exact .of_reads .none hc

instance reader_binaryExpression (fuel least : Nat) : Reader true (binaryExpression self fuel least) := by
  induction fuel generalizing least with
  | zero => exact ⟨fun _ => .fail⟩
  | succ fuel ih => exact ⟨fun _ => .here fun lo hlo => .read fun first => reads_joined hlo⟩

omit [ReadsParts self] in
theorem reads_binaryRest (hlo : g.Stops lo) : Reads true base [first] (binaryRest self lo first) :=
  .skip fun _ => reads_joined hlo

omit [ReadsParts self] in
theorem reads_conditionalRest (hlo : g.Stops lo) : Reads true base [test] (conditionalRest self lo test) := by
  refine .skip fun _ => .ite (.read fun yes => .skip fun _ => .read fun no => ?_) (.pure (.refl _))
  exact .node hlo rfl (.refl _)

instance reader_conditionalExpression : Reader true (conditionalExpression self) :=
  ⟨fun _ => .here fun _ hlo => .skip fun _ => .read fun _ => reads_conditionalRest hlo⟩

instance reader_yieldExpression : Reader true (yieldExpression self) := by
  refine ⟨fun base => .here fun lo hlo => .skip fun _ => .skip fun _ => .ite (.node hlo rfl (.refl _)) ?_⟩
  refine .skip fun _ => .ite (.read fun e => .node hlo rfl (.refl _)) (.skip fun t => .ite ?_ ?_)
  · exact .read fun e => .node hlo rfl (.refl _)
  · exact .node hlo rfl (.refl _)

/-! ### Assignments and arrow functions -/

/-- Expressions in the place of parameters leave no calls behind. -/
theorem callFree_looseParameters (h : e.Tidy) : ∀ n ∈ looseParameters e, n.Tidy ∧ n.callStarts = [] := by
  intro n hn
  obtain ⟨item, hitem, rfl⟩ := List.mem_map.mp hn
  have hlo : g.Stops item.span.lo := by
    split at hitem
    · exact (h.child hitem).lo
    · obtain rfl := List.mem_singleton.mp hitem
      exact h.lo
  split
  · next name _ =>
    have hname : (Node.leaf (.binding name) item.span).Tidy := Node.tidy_leaf hlo (by simp)
    refine ⟨.mk hlo (by simp) (by simp) (by simp) (fun _ => List.pairwise_singleton _ _)
      (by simpa using hname), ?_⟩
    have hnone := Node.callStarts_leaf (show Kind.binding name ≠ .call by simp) item.span
    simp [Node.callStarts_mk, hnone]
  · exact ⟨Node.tidy_leaf hlo (by simp), Node.callStarts_leaf (show Kind.parameter ≠ .call by simp) _⟩

omit [ReadsParts self] in
theorem reads_operatorsBehind (hlo : g.Stops lo) :
    Reads true base [e] (assignmentExpression.operatorsBehind self lo e) := by
  refine .cursor fun c hc => ?_
  split
  · exact .last (reads_binaryRest hlo) fun test => reads_conditionalRest hlo
  · exact .pure (.refl _)

omit [ReadsParts self] in
theorem reads_looseArrow (hlo : g.Stops lo) :
    Reads true base [e] (assignmentExpression.looseArrow self lo e) := by
  have hrest : Reads true base [e] (do
      let arrow ← arrowRest self lo false (e.children.flatMap looseParameters) []
      assignmentExpression.operatorsBehind self lo arrow) := by
    refine .last (.ofLoose (.regroup (reads_arrowRest hlo (List.Subset.refl _)) fun hi _ h => ?_)) fun arrow => ?_
    · refine .of_callFree fun n hn => ?_
      rw [List.append_nil] at hn
      obtain ⟨part, hpart, hn⟩ := List.mem_flatMap.mp hn
      exact callFree_looseParameters ((h.tidy e List.mem_cons_self).child hpart) n hn
    · exact reads_operatorsBehind hlo
  exact .ite (.skip fun _ => hrest) .failBind

instance reader_assignmentExpression : Reader true (assignmentExpression self) := by
  refine ⟨fun base => .here fun lo hlo => .skip fun _ => .skip fun _ => .skip fun _ => .read fun found => ?_⟩
  cases found with
  | some e => exact .ite (reads_operatorsBehind hlo) (.pure (.refl _))
  | none =>
      refine .skip fun _ => .skip fun _ => .ite .only (.read fun left => .atCursor fun c hc => ?_)
      split
      · next after hop =>
        have hright : Reads true base [left] (do
            let right ← self .assignment
            node .assign lo [left, right]) :=
          .read fun right => .node hlo rfl (.refl _)
        have hmoved : ReadsAt true base [left] c (do
            moveTo after
            let right ← self .assignment
            node .assign lo [left, right]) :=
          .moveTo hc (fun g hc => Cursor.admits_of_operator? hop hc) hright
        refine .look rfl ?_
        dsimp only
        split
        · split
          · exact hmoved
          · exact .of_reads .failBind hc
        · split
          · exact hmoved
          · exact .of_reads .failBind hc
      · exact .of_reads (.skip fun _ => .skip fun _ => .ite (reads_looseArrow hlo) (.pure (.refl _))) hc

instance reader_sequenceExpression : Reader true (sequenceExpression self) := by
  refine ⟨fun base => .here fun lo hlo => .read fun first => .bind ?_ fun rest => .ite ?_ ?_⟩
  · exact reader_many ⟨fun _ => .skip fun _ => .ite (.some .only) .none⟩
  · exact .pure (List.sublist_append_left _ _)
  · exact .node hlo rfl (.refl _)

end Localization.Source.Parser
