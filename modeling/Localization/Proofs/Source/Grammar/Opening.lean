import Localization.Proofs.Source.Grammar.Run

/-!
Modules that open with a brace and a string. The bytes of the string are a gap of the whole module, and
where nothing can continue the string the module holds nothing else. Main statement: `clear_moduleBody`.
-/

open Std.Do

set_option mvcgen.warning false

namespace Localization.Source

/-- The current token is a string that fills a gap. -/
structure Cursor.AtString (g : Gap) (c : Cursor) (value : Option String) : Prop where
  kind : c.token.kind = .string value
  lo : g.Front c.token.span.lo
  hi : g.Stops c.token.span.hi
  filled : c.token.span.lo < c.token.span.hi
  behind : (c.movedTo c.after).Behind g

namespace Parser

variable {self : Goal → Parser Node} [ReadsParts self] [g : Gap] {c : Cursor} {value : Option String}

theorem isPlain_of_atString (h : c.AtString g value) : c.token.kind.isPlain = true := by
  rw [h.kind]
  rfl

/-- What begins with the string at a reader misses the string's bytes, and it is the string if nothing
continues it. -/
def ReadsString (g : Gap) (p : Parser Node) (c : Cursor) (value : Option String) : Prop :=
  ∀ n c', p c = .ok (n, c') → (c'.Behind g ∧ Placed g n) ∧
    ((c.movedTo c.after).token.kind.isStop = true →
      n = .leaf (.string value) c.token.span ∧ c' = c.movedTo c.after)

omit [ReadsParts self] in
theorem primary_of_atString (h : c.AtString g value) :
    primary self c = .ok (.leaf (.string value) c.token.span, c.movedTo c.after) := by
  unfold primary
  rw [run_bind_of_ok run_token]
  simp only [h.kind, leaf, run_bind, run_token, run_bump, run_pure]

theorem placed_of_atString (h : c.AtString g value) :
    Placed g (.leaf (.string value) c.token.span : Node) :=
  ⟨Node.isPart_leaf.mpr rfl,
    .mk (.inl h.lo) (.inr h.hi) nofun (fun _ => .inr ⟨h.lo, rfl⟩) nofun (fun _ _ => h.filled) (by simp)⟩

theorem readsString_operand (h : c.AtString g value) (calls : Bool) :
    ReadsString g (operand self calls) c value := by
  intro n c' hrun
  rw [operand, run_bind_of_ok (primary_of_atString h)] at hrun
  refine ⟨?_, fun hstop => ?_⟩
  · exact keeps_iff.mp (extending_spec (placed_of_atString h) fun a ha => access?_spec ha) _ _ _
      h.behind hrun
  · rw [extending_of_none (access?_of_endsOperand (endsOperand_of_isPlain (isPlain_of_isStop hstop)) calls _)] at hrun
    cases hrun
    exact ⟨rfl, rfl⟩

theorem ReadsString.bind {p : Parser Node} {f : Node → Parser Node} (h : ReadsString g p c value)
    (hkeeps : ∀ e, Placed g e → Keeps g (f e) (Placed g))
    (hstays : ∀ e c', c'.token.kind.isPlain = true → f e c' = .ok (e, c')) :
    ReadsString g (p >>= f) c value := by
  intro n c' hrun
  obtain ⟨e, c₁, he, hrun⟩ := bind_eq_ok.mp hrun
  obtain ⟨⟨hbehind, hplaced⟩, hstring⟩ := h e c₁ he
  refine ⟨keeps_iff.mp (hkeeps e hplaced) c₁ n c' hbehind hrun, fun hstop => ?_⟩
  obtain ⟨rfl, rfl⟩ := hstring hstop
  rw [hstays _ _ (isPlain_of_isStop hstop)] at hrun
  cases hrun
  exact ⟨rfl, rfl⟩

omit [ReadsParts self] in
theorem readsString_postfixExpression (h : c.AtString g value)
    (hself : ReadsString g (self .leftHandSide) c value) :
    ReadsString g (postfixExpression self) c value := by
  intro n c' hrun
  rw [postfixExpression, run_bind_of_ok run_here] at hrun
  have hlo : g.Misses c.token.span.lo := .inl h.lo
  refine hself.bind (fun e he => ?_) (fun e c' hplain => ?_) n c' hrun
  · clear hrun
    mvcgen
    all_goals simp_all
  · simp [run_bind, not_mark_of_isPlain hplain (m := .plusPlus) (by decide),
      not_mark_of_isPlain hplain (m := .minusMinus) (by decide)]

theorem readsString_binaryExpression (h : c.AtString g value)
    (hself : ReadsString g (self .leftHandSide) c value) (fuel least : Nat) :
    ReadsString g (binaryExpression self fuel least) c value := by
  intro n c' hrun
  cases fuel with
  | zero => exact nomatch hrun
  | succ fuel =>
      rw [binaryExpression, run_bind_of_ok run_here] at hrun
      have hunary : ReadsString g (unaryExpression self) c value := by
        intro n c' hrun
        rw [unaryExpression_of_isPlain (isPlain_of_atString h)] at hrun
        exact readsString_postfixExpression h hself n c' hrun
      exact hunary.bind (fun e he => joined_spec (binaryExpression_spec fuel) (.inl h.lo) he)
        (fun e c' hplain => joined_of_endsOperand (endsOperand_of_isPlain hplain) ..) n c' hrun

theorem readsString_conditionalExpression (h : c.AtString g value)
    (hself : ReadsString g (self .leftHandSide) c value) :
    ReadsString g (conditionalExpression self) c value := by
  intro n c' hrun
  rw [conditionalExpression, run_bind_of_ok run_here] at hrun
  exact (readsString_binaryExpression h hself _ 0).bind
    (fun e he => conditionalRest_spec (.inl h.lo) he)
    (fun e c' hplain => conditionalRest_of_endsOperand (endsOperand_of_isPlain hplain) ..) n c' hrun

theorem readsString_assignmentExpression (h : c.AtString g value)
    (hself : ReadsString g (self .leftHandSide) c value) :
    ReadsString g (assignmentExpression self) c value := by
  have hat := isPlain_of_atString h
  have hlo : g.Misses c.token.span.lo := .inl h.lo
  intro n c' hrun
  rw [assignmentExpression, run_bind_of_ok run_here, run_bind_of_ok (run_isMark _),
    run_bind_of_ok (run_isWord _), run_bind_of_ok run_peek,
    run_bind_of_ok (arrowFunction?_of_isPlain hat)] at hrun
  dsimp only at hrun
  rw [run_bind_of_ok run_get, run_bind_of_ok (run_isWord _), not_word_of_isPlain _ hat, Bool.and_false,
    if_neg Bool.false_ne_true] at hrun
  refine (readsString_conditionalExpression h hself).bind (fun e he => ?_) (fun e c' hplain => ?_) n c' hrun
  · clear hrun
    mvcgen
    all_goals simp_all
    all_goals exact Cursor.admits_of_operator? ‹_› ‹_›
  · simp [run_bind, operator?_of_endsOperand (endsOperand_of_isPlain hplain), not_mark_of_isPlain hplain (m := .arrow) (by decide)]

theorem readsString_sequenceExpression (h : c.AtString g value)
    (hself : ReadsString g (self .assignment) c value) :
    ReadsString g (sequenceExpression self) c value := by
  have hlo : g.Misses c.token.span.lo := .inl h.lo
  intro n c' hrun
  rw [sequenceExpression, run_bind_of_ok run_here] at hrun
  refine hself.bind (fun e he => ?_) (fun e c' hplain => ?_) n c' hrun
  · clear hrun
    mvcgen
    all_goals simp_all
  · rw [run_bind_of_ok (many_of_none ?_)]
    · rfl
    · simp [takeMark, run_bind, not_mark_of_isPlain hplain (m := .comma) (by decide)]

theorem readsString_construct (h : c.AtString g value) (depth : Nat) :
    ReadsString g (construct depth .leftHandSide) c value ∧
      ReadsString g (construct depth .assignment) c value ∧
        ReadsString g (construct depth .expression) c value := by
  induction depth with
  | zero =>
      have hfail : ReadsString g (fail : Parser Node) c value := fun n c' hrun => nomatch hrun
      exact ⟨hfail, hfail, hfail⟩
  | succ depth ih =>
      obtain ⟨hoperand, hassignment, -⟩ := ih
      exact ⟨readsString_operand h true, readsString_assignmentExpression h hoperand,
        readsString_sequenceExpression h hassignment⟩


theorem readsString_statement (h : c.AtString g value)
    (hself : ReadsString g (self .expression) c value) {n : Node} {c' : Cursor}
    (hrun : statement self true c = .ok (n, c')) :
    (c'.Behind g ∧ Placed g n) ∧ ((c.movedTo c.after).token.kind.isStop = true →
      c' = c.movedTo c.after ∧
        ∃ span, n = .mk .expressionStatement span [.leaf (.string value) c.token.span]) := by
  have hat := isPlain_of_atString h
  have hlo : g.Misses c.token.span.lo := .inl h.lo
  have hrun : expressionStatement self c.token.span.lo c = .ok (n, c') := by
    simpa [statement, run_bind, decorators_of_isPlain hat, keywordStatement?_of_isPlain hat,
      anyDeclaration?_of_isPlain hat, not_word_of_isPlain _ hat] using hrun
  rw [expressionStatement, run_bind_of_ok run_here, run_bind_of_ok run_isIdentifier,
    identifierOf?_of_isPlain hat, run_bind_of_ok run_peek] at hrun
  simp only [Option.isSome_none, Bool.false_and, Bool.false_eq_true, if_false] at hrun
  obtain ⟨e, c₁, he, hrun⟩ := bind_eq_ok.mp hrun
  obtain ⟨⟨hbehind, hplaced⟩, hstring⟩ := hself e c₁ he
  refine ⟨?_, fun hstop => ?_⟩
  · refine keeps_iff.mp ?_ c₁ n c' hbehind hrun
    clear hrun he hstring
    mvcgen [node_of_parts_spec, -node_spec]
    all_goals simp_all
  · obtain ⟨rfl, rfl⟩ := hstring hstop
    have hplain := isPlain_of_isStop hstop
    obtain ⟨ends, hends⟩ : ∃ ends, canEnd (c.movedTo c.after) = .ok (ends, c.movedTo c.after) := ⟨_, rfl⟩
    rw [run_bind_of_ok hends] at hrun
    cases ends with
    | false => simp [run_bind, operator?_of_endsOperand (endsOperand_of_isPlain hplain)] at hrun
    | true =>
        simp [semicolon, takeMark, run_bind, hends,
          not_mark_of_isPlain hplain (m := .semicolon) (by decide)] at hrun
        exact ⟨hrun.2.symm, _, hrun.1.symm⟩


theorem atString_flags (h : c.AtString g value) (flags : Flags) :
    Cursor.AtString g { c with flags := flags } value :=
  ⟨h.kind, h.lo, h.hi, h.filled, h.behind.withFlags flags⟩


theorem readsString_statementsToBrace (h : c.AtString g value) (depth : Nat) {items : List Node}
    {c' : Cursor} (hrun : statementsToBrace (construct depth (.statement true)) c = .ok (items, c')) :
    (c'.Behind g ∧ Placed g items) ∧ ((c.movedTo c.after).token.kind.isStop = true →
      ∃ span, items = [.mk .expressionStatement span [.leaf (.string value) c.token.span]] ∧
        c'.token.kind = .endOfText) := by
  have hitem : Keeps g (construct depth (.statement true)) (Placed g) :=
    keeps_iff.mpr fun c n after hc hn => (keeps_iff.mp (construct_spec depth _) c n after hc hn).imp_right And.left
  obtain ⟨all, c₂, hmany, hend⟩ := bind_eq_ok.mp hrun
  obtain ⟨found, c₁, hfirst, hall⟩ := exists_of_loop hmany
  obtain ⟨hkind, -, -⟩ | ⟨-, s, hs, rfl⟩ := exists_of_statement (isPlain_of_atString h) hfirst
  · rw [h.kind] at hkind
    contradiction
  obtain ⟨rest, hrest, rfl⟩ := hall
  cases depth with
  | zero => exact nomatch hs
  | succ depth =>
      obtain ⟨⟨hbehind, hplaced⟩, hstring⟩ :=
        readsString_statement h (readsString_construct h depth).2.2 hs
      refine ⟨?_, fun hstop => ?_⟩
      · obtain ⟨hbehind, hmore⟩ : c₂.Behind g ∧ Placed g rest := by
          refine keeps_iff.mp (many_loop_spec ?_ _) c₁ rest c₂ hbehind hrest
          clear hend hrest hrun hmany hfirst
          mvcgen [hitem]
          all_goals simp_all
        refine keeps_iff.mp ?_ c₂ items c' hbehind hend
        clear hend hrest hrun hmany hfirst
        mvcgen
        simp_all
      · obtain ⟨rfl, span, rfl⟩ := hstring hstop
        have hplain := isPlain_of_isStop hstop
        obtain ⟨found, c₃, hsecond, hall⟩ := exists_of_loop hrest
        obtain ⟨hkind, rfl, rfl⟩ | ⟨-, s, hs, -⟩ := exists_of_statement hplain hsecond
        · obtain ⟨rfl, rfl⟩ := hall
          simp [takeMark, run_bind, hkind] at hend
          exact ⟨span, hend.1.symm, by rw [← hend.2]; exact hkind⟩
        · obtain ⟨e, he⟩ := (refuses_construct hstop (depth + 1)).2.2.2
          rw [he] at hs
          contradiction

/-- A brace is the current token, and the string behind it fills a gap. -/
structure OpensString (g : Gap) (c : Cursor) (value : Option String) : Prop where
  kind : c.token.kind = .mark .leftBrace
  lo : g.Front c.token.span.lo
  behind : g.Front (c.token.span.lo + 1)
  string : (c.movedTo c.after).AtString g value

theorem opensString_block (h : OpensString g c value) (depth : Nat) {n : Node} {c' : Cursor}
    (hrun : construct depth .block c = .ok (n, c')) :
    (c'.Behind g ∧ Placed g n) ∧
      (((c.movedTo c.after).movedTo (c.movedTo c.after).after).token.kind.isStop = true →
        c'.token.kind = .endOfText ∧ ∃ outer inner, n = .mk .block outer
          [.mk .expressionStatement inner [.leaf (.string value) (c.movedTo c.after).token.span]]) := by
  obtain ⟨inner, flags, items, after, hitems, rfl, rfl⟩ := exists_statements_of_block h.kind hrun
  obtain ⟨⟨hbehind, hplaced⟩, hstring⟩ :=
    readsString_statementsToBrace (atString_flags h.string flags) inner hitems
  have hblock : Keeps g (node .block c.token.span.lo items) fun n => Placed g n ∧ n.kind = .block :=
    node_of_parts_spec (.inl h.lo) rfl hplaced nofun nofun fun _ => .inl h.behind
  have hnode := keeps_iff.mp hblock after _ _ hbehind (run_node ..)
  refine ⟨⟨?_, hnode.2.1⟩, fun hstop => ?_⟩
  · exact hbehind.withFlags _
  · obtain ⟨inner, rfl, hend⟩ := hstring hstop
    exact ⟨hend, _, inner, rfl⟩

theorem clear_moduleBody (h : OpensString g c value) (hfirst : g.Front 0) {depth : Nat} {module : Node} {c' : Cursor}
    (hrun : moduleBody depth c = .ok (module, c')) : module.Clear g ∧
      (((c.movedTo c.after).movedTo (c.movedTo c.after).after).token.kind.isStop = true →
        ∃ whole outer inner, module = .mk .module whole [.mk .block outer
          [.mk .expressionStatement inner [.leaf (.string value) (c.movedTo c.after).token.span]]]) := by
  obtain ⟨inner, block, c₁, fuel, rest, hblock, hrest, rfl⟩ := exists_block_of_moduleBody h.kind hrun
  obtain ⟨⟨hbehind, hplaced⟩, hstring⟩ := opensString_block h inner hblock
  refine ⟨?_, fun hstop => ?_⟩
  · have hitem : Keeps g (construct depth .moduleItem) (Placed g) :=
      keeps_iff.mpr fun c n after hc hn =>
        (keeps_iff.mp (construct_spec depth _) c n after hc hn).imp_right And.left
    obtain ⟨hbehind, hmore⟩ : c'.Behind g ∧ Placed g rest := by
      refine keeps_iff.mp (many_loop_spec ?_ _) c₁ rest c' hbehind hrest
      clear hrest hrun
      mvcgen [hitem]
      all_goals simp_all
    have hmodule : Keeps g (node .module 0 (block :: rest)) fun n => Placed g n ∧ n.kind = .module :=
      node_spec (.inl hfirst) ⟨rfl, rfl, rfl, by simp⟩ (placed_cons.mpr ⟨hplaced, hmore⟩)
    exact (keeps_iff.mp hmodule c' _ _ hbehind (run_node ..)).2.1.2
  · obtain ⟨hkind, outer, inner, rfl⟩ := hstring hstop
    obtain ⟨found, c₄, hsecond, hall⟩ := exists_of_loop hrest
    rw [run_bind_of_ok run_token, hkind] at hsecond
    cases hsecond
    obtain ⟨rfl, rfl⟩ := hall
    exact ⟨_, outer, inner, rfl⟩

end Parser

end Localization.Source
