import Localization.Proofs.Source.Grammar.Module

/-!
How readers run at a token that begins no keyword construct: no declaration, no arrow function and no
operator is read there, and an expression is refused where it cannot begin.
-/

namespace Localization.Source

/-- Tokens that begin no declaration and no arrow function. -/
def TokenKind.isPlain : TokenKind → Bool
  | .string _ | .mark .colon | .endOfText | .invalid => true
  | _ => false

/-- Tokens that begin no access, no call and no operator behind an operand. -/
def TokenKind.endsOperand : TokenKind → Bool
  | .string _ | .name "import" false | .endOfText | .invalid => true
  | .mark m =>
    [Mark.colon, .comma, .semicolon, .rightParen, .rightBracket, .rightBrace].contains m
  | _ => false

/-- Tokens that neither begin an expression nor continue one. -/
def TokenKind.isStop : TokenKind → Bool
  | .mark .colon | .endOfText | .invalid => true
  | _ => false

namespace Parser

section

variable {α β : Type} {p : Parser α} {f : α → Parser β} {a : α} {b : β} {c c' c'' : Cursor}

theorem run_bind : (p >>= f) c =
    match p c with
    | .ok (a, c') => f a c'
    | .error e => .error e := by
  change (p c >>= fun r => f r.1 r.2) = _
  cases p c <;> rfl

theorem run_bind_of_ok (h : p c = .ok (a, c')) : (p >>= f) c = f a c' := by
  rw [run_bind, h]

theorem bind_eq_ok : (p >>= f) c = .ok (b, c'') ↔
    ∃ a c', p c = .ok (a, c') ∧ f a c' = .ok (b, c'') := by
  rw [run_bind]
  cases p c with
  | error e => simp
  | ok r =>
      obtain ⟨a, c'⟩ := r
      simp

theorem run_map {f : α → β} : (f <$> p) c =
    match p c with
    | .ok (a, c') => .ok (f a, c')
    | .error e => .error e := by
  rw [map_eq_pure_bind, run_bind]
  cases p c <;> rfl

@[simp] theorem run_pure : (pure a : Parser α) c = .ok (a, c) := rfl
@[simp] theorem run_get : (get : Parser Cursor) c = .ok (c, c) := rfl
@[simp] theorem run_fail : (fail : Parser α) c = .error ⟨c.token.span.lo⟩ := rfl
@[simp] theorem run_token : token c = .ok (c.token, c) := rfl
@[simp] theorem run_here : here c = .ok (c.token.span.lo, c) := rfl
@[simp] theorem run_newlineBefore : newlineBefore c = .ok (c.token.newlineBefore, c) := rfl
@[simp] theorem run_peek : peek c = .ok ((nextToken false c.after).token, c) := rfl
@[simp] theorem run_bump : bump c = .ok ((), c.movedTo c.after) := rfl
@[simp] theorem run_isMark (m : Mark) : isMark m c = .ok (c.token.kind == .mark m, c) := rfl
@[simp] theorem run_isWord (word : String) : isWord word c = .ok (isWordToken c.token word, c) := rfl
@[simp] theorem run_node (kind : Kind) (lo : Nat) (children : List Node) :
    node kind lo children c = .ok (.mk kind ⟨lo, c.previousEnd⟩ children, c) := rfl
@[simp] theorem run_isIdentifier : isIdentifier c = .ok ((identifierOf? c.token).isSome, c) := rfl

theorem exists_of_loop {step : Parser (Option α)} {fuel : Nat} {items : List α}
    (h : many.loop step (fuel + 1) c = .ok (items, c')) : ∃ found c₁, step c = .ok (found, c₁) ∧
      match found with
      | none => items = [] ∧ c' = c₁
      | some a => ∃ rest, many.loop step fuel c₁ = .ok (rest, c') ∧ items = a :: rest := by
  rw [many.loop] at h
  obtain ⟨found, c₁, hfound, h⟩ := bind_eq_ok.mp h
  refine ⟨found, c₁, hfound, ?_⟩
  cases found with
  | none =>
      cases h
      exact ⟨rfl, rfl⟩
  | some a =>
      obtain ⟨rest, c₂, hrest, h⟩ := bind_eq_ok.mp h
      cases h
      exact ⟨rest, hrest, rfl⟩

theorem exists_of_withFlags {change : Flags → Flags}
    (h : withFlags change p c = .ok (a, c')) : ∃ after,
      p { c with flags := change c.flags } = .ok (a, after) ∧ { after with flags := c.flags } = c' := by
  change (p >>= fun a => (do modify fun c' => { c' with flags := c.flags }; return a))
    { c with flags := change c.flags } = .ok (a, c') at h
  obtain ⟨a', after, hp, h⟩ := bind_eq_ok.mp h
  cases h
  exact ⟨after, hp, rfl⟩

end

/-! ## Tokens that begin no keyword construct -/

theorem not_mark_of_isPlain {kind : TokenKind} {m : Mark} (h : kind.isPlain = true) (hm : m ≠ .colon) :
    (kind == .mark m) = false := by
  cases kind with
  | mark m' =>
      cases m' <;> simp_all [TokenKind.isPlain]
      exact fun h => hm h.symm
  | _ => simp_all [TokenKind.isPlain]

theorem not_word_of_isPlain {t : Token} (word : String) (h : t.kind.isPlain = true) :
    isWordToken t word = false := by
  unfold isWordToken
  cases hkind : t.kind with
  | name => simp [hkind, TokenKind.isPlain] at h
  | _ => rfl

theorem nameOf?_of_isPlain {t : Token} (h : t.kind.isPlain = true) : nameOf? t = none := by
  unfold nameOf?
  cases hkind : t.kind with
  | name => simp [hkind, TokenKind.isPlain] at h
  | _ => rfl

theorem identifierOf?_of_isPlain {t : Token} (h : t.kind.isPlain = true) :
    identifierOf? t = none := by
  rw [identifierOf?, nameOf?_of_isPlain h]

variable {self : Goal → Parser Node} {c : Cursor}

theorem decorators_of_isPlain (h : c.token.kind.isPlain = true) : decorators self c = .ok ([], c) := by
  have hat := not_mark_of_isPlain h (m := .at) nofun
  simp [decorators, many, many.loop, run_bind, hat]

theorem keywordStatement?_of_isPlain (h : c.token.kind.isPlain = true) (lo : Nat) :
    keywordStatement? self lo c = .ok (none, c) := by
  unfold keywordStatement?
  rw [run_bind_of_ok run_token]
  dsimp only
  cases hkind : c.token.kind with
  | name => simp [hkind, TokenKind.isPlain] at h
  | mark m => cases m <;> first | rfl | simp [hkind, TokenKind.isPlain] at h
  | _ => rfl

/-- The words that a declaration begins with. -/
def declarationWords : List String :=
  ["abstract", "async", "await", "class", "const", "declare", "enum", "function", "global", "interface",
    "let", "module", "namespace", "type", "using", "var"]

section

variable (h : ∀ word ∈ declarationWords, isWordToken c.token word = false)

include h

theorem typeDeclaration?_of_words (lo : Nat) (marks : List Node) :
    typeDeclaration? self lo marks c = .ok (none, c) := by
  simp only [declarationWords, List.forall_mem_cons] at h
  simp [typeDeclaration?, run_bind, h]

theorem declaration?_of_words (lo : Nat) (marks : List Node) :
    declaration? self lo marks c = .ok (none, c) := by
  have htypes : typeDeclaration? self lo marks c = .ok (none, c) := typeDeclaration?_of_words h lo marks
  simp only [declarationWords, List.forall_mem_cons] at h
  have husing : isUsingDeclaration c = .ok (false, c) := by
    simp [isUsingDeclaration, looksLike, takeWord, expectWord, run_bind, h]
  simp [declaration?, isLetDeclaration, run_bind, htypes, husing, h]

theorem anyDeclaration?_of_words (lo : Nat) (marks : List Node) :
    anyDeclaration? self lo marks c = .ok (none, c) := by
  have hnone : declaration? self lo marks c = .ok (none, c) := declaration?_of_words h lo marks
  simp only [declarationWords, List.forall_mem_cons] at h
  simp [anyDeclaration?, run_bind, hnone, h]

end

theorem anyDeclaration?_of_isPlain (h : c.token.kind.isPlain = true) (lo : Nat) (marks : List Node) :
    anyDeclaration? self lo marks c = .ok (none, c) :=
  anyDeclaration?_of_words (fun word _ => not_word_of_isPlain word h) lo marks

theorem arrowFunction?_of_isPlain (h : c.token.kind.isPlain = true) :
    arrowFunction? self c = .ok (none, c) := by
  simp [arrowFunction?, run_bind, not_word_of_isPlain _ h, identifierOf?_of_isPlain h,
    not_mark_of_isPlain h (m := .leftParen) (by decide), not_mark_of_isPlain h (m := .less) (by decide)]

/-! ## Behind an operand -/

theorem isPlain_of_isStop {kind : TokenKind} (h : kind.isStop = true) : kind.isPlain = true := by
  cases kind with
  | mark m => cases m <;> simp_all [TokenKind.isStop, TokenKind.isPlain]
  | _ => simp_all [TokenKind.isStop, TokenKind.isPlain]

theorem endsOperand_of_isPlain {kind : TokenKind} (h : kind.isPlain = true) :
    kind.endsOperand = true := by
  cases kind with
  | mark m => cases m <;> first | rfl | simp [TokenKind.isPlain] at h
  | _ => simp_all [TokenKind.isPlain, TokenKind.endsOperand]

theorem not_mark_of_endsOperand {kind : TokenKind} {m : Mark} (h : kind.endsOperand = true)
    (hm : (TokenKind.mark m).endsOperand = false) : (kind == .mark m) = false :=
  beq_false_of_ne fun hkind => by simp [← hkind, h] at hm

theorem operator?_of_endsOperand (h : c.token.kind.endsOperand = true) : operator? c = none := by
  unfold operator?
  cases hkind : c.token.kind with
  | name text escaped =>
      rw [hkind, TokenKind.endsOperand.eq_def] at h
      split at h <;> simp_all
  | mark m => cases m <;> first | rfl | simp [hkind, TokenKind.endsOperand] at h
  | _ => rfl

theorem extending_of_none {α : Type} {first : α} {step : α → Parser (Option α)}
    (h : step first c = .ok (none, c)) : extending first step c = .ok (first, c) := by
  rw [extending, extending.loop, run_bind_of_ok h]
  rfl

theorem many_of_none {α : Type} {step : Parser (Option α)} (h : step c = .ok (none, c)) :
    many step c = .ok ([], c) := by
  rw [many, many.loop, run_bind_of_ok h]
  rfl

theorem access?_of_endsOperand (h : c.token.kind.endsOperand = true) (calls : Bool) (e : Node) :
    access? self calls e c = .ok (none, c) := by
  unfold access?
  rw [run_bind_of_ok run_token]
  cases hkind : c.token.kind with
  | mark m => cases m <;> first | rfl | simp [hkind, TokenKind.endsOperand] at h
  | _ => rfl

theorem joined_of_endsOperand (h : c.token.kind.endsOperand = true) (right : Nat → Parser Node)
    (least lo : Nat) (first : Node) : joined self right least lo first c = .ok (first, c) := by
  refine extending_of_none ?_
  simp [run_bind, operator?_of_endsOperand h]

theorem conditionalRest_of_endsOperand (h : c.token.kind.endsOperand = true) (lo : Nat) (test : Node) :
    conditionalRest self lo test c = .ok (test, c) := by
  simp [conditionalRest, takeMark, run_bind, not_mark_of_endsOperand h (m := .question) (by decide)]

theorem unaryExpression_of_isPlain (h : c.token.kind.isPlain = true) :
    unaryExpression self c = postfixExpression self c := by
  unfold unaryExpression
  rw [run_bind_of_ok run_token]
  cases hkind : c.token.kind with
  | name => simp [hkind, TokenKind.isPlain] at h
  | mark m => cases m <;> first | rfl | simp [hkind, TokenKind.isPlain] at h
  | _ => rfl

/-! ## Refusals -/

/-- A reader refuses the text. -/
def Refuses {α : Type} (p : Parser α) (c : Cursor) : Prop :=
  ∃ e, p c = .error e

theorem Refuses.bind {α β : Type} {p : Parser α} (h : Refuses p c) (f : α → Parser β) :
    Refuses (p >>= f) c := by
  obtain ⟨e, he⟩ := h
  exact ⟨e, by rw [run_bind, he]⟩

theorem refuses_primary (h : c.token.kind.isStop = true) : Refuses (primary self) c := by
  unfold Refuses primary
  rw [run_bind_of_ok run_token]
  dsimp only
  cases hkind : c.token.kind with
  | name => simp [hkind, TokenKind.isStop] at h
  | mark m =>
      cases m with
      | colon => exact ⟨_, rfl⟩
      | _ => simp [hkind, TokenKind.isStop] at h
  | endOfText => exact ⟨_, rfl⟩
  | invalid => exact ⟨_, rfl⟩
  | _ => simp [hkind, TokenKind.isStop] at h

theorem refuses_operand (h : c.token.kind.isStop = true) (calls : Bool) :
    Refuses (operand self calls) c :=
  (refuses_primary h).bind _

theorem refuses_unaryExpression (h : c.token.kind.isStop = true) (hself : Refuses (self .leftHandSide) c) :
    Refuses (unaryExpression self) c := by
  obtain ⟨e, he⟩ := hself
  simp [Refuses, unaryExpression_of_isPlain (isPlain_of_isStop h), postfixExpression, run_bind, he]

theorem refuses_binaryExpression (h : c.token.kind.isStop = true)
    (hself : Refuses (self .leftHandSide) c) (fuel least : Nat) :
    Refuses (binaryExpression self fuel least) c := by
  cases fuel with
  | zero => exact ⟨_, rfl⟩
  | succ fuel =>
      obtain ⟨e, he⟩ := refuses_unaryExpression h hself
      simp [Refuses, binaryExpression, run_bind, he]

theorem refuses_assignmentExpression (h : c.token.kind.isStop = true)
    (hself : Refuses (self .leftHandSide) c) : Refuses (assignmentExpression self) c := by
  have hplain := isPlain_of_isStop h
  obtain ⟨e, he⟩ := refuses_binaryExpression h hself (c.size + 1) 0
  simp [Refuses, assignmentExpression, conditionalExpression, run_bind, arrowFunction?_of_isPlain hplain,
    not_word_of_isPlain _ hplain, he]

theorem refuses_sequenceExpression (hself : Refuses (self .assignment) c) :
    Refuses (sequenceExpression self) c := by
  obtain ⟨e, he⟩ := hself
  simp [Refuses, sequenceExpression, run_bind, he]

theorem refuses_statement (h : c.token.kind.isStop = true) (hself : Refuses (self .expression) c) :
    Refuses (statement self true) c := by
  have hplain := isPlain_of_isStop h
  obtain ⟨e, he⟩ := hself
  simp [Refuses, statement, expressionStatement, run_bind, decorators_of_isPlain hplain,
    keywordStatement?_of_isPlain hplain, anyDeclaration?_of_isPlain hplain, not_word_of_isPlain _ hplain,
    identifierOf?_of_isPlain hplain, he]

theorem refuses_construct (h : c.token.kind.isStop = true) (depth : Nat) :
    Refuses (construct depth .leftHandSide) c ∧ Refuses (construct depth .assignment) c ∧
      Refuses (construct depth .expression) c ∧ Refuses (construct depth (.statement true)) c := by
  induction depth with
  | zero => exact ⟨⟨_, rfl⟩, ⟨_, rfl⟩, ⟨_, rfl⟩, ⟨_, rfl⟩⟩
  | succ depth ih =>
      obtain ⟨hoperand, hassignment, hexpression, -⟩ := ih
      exact ⟨refuses_operand h true, refuses_assignmentExpression h hoperand,
        refuses_sequenceExpression hassignment, refuses_statement h hexpression⟩

/-! ## Blocks and modules -/

/-- The step of a list of statements at a token that is no closing brace. -/
theorem exists_of_statement {item : Parser Node} {found : Option Node}
    {c₁ : Cursor}
    (hat : c.token.kind.isPlain = true)
    (h : (do if (← isMark .rightBrace) || (← token).kind == .endOfText then return none
             return some (← item) : Parser (Option Node)) c = .ok (found, c₁)) :
    (c.token.kind = .endOfText ∧ found = none ∧ c₁ = c) ∨
      (c.token.kind ≠ .endOfText ∧ ∃ s, item c = .ok (s, c₁) ∧ found = some s) := by
  rw [run_bind_of_ok (run_isMark _), run_bind_of_ok run_token,
    not_mark_of_isPlain hat (m := .rightBrace) nofun] at h
  by_cases hend : c.token.kind = .endOfText
  · rw [hend] at h
    cases h
    exact .inl ⟨hend, rfl, rfl⟩
  · rw [beq_false_of_ne hend] at h
    obtain ⟨s, c₂, hs, h⟩ := bind_eq_ok.mp h
    cases h
    exact .inr ⟨hend, s, hs, rfl⟩

theorem exists_block_of_moduleItem (h : c.token.kind = .mark .leftBrace) {depth : Nat} {n : Node}
    {c' : Cursor} (hrun : construct depth .moduleItem c = .ok (n, c')) :
    ∃ inner, construct inner .block c = .ok (n, c') := by
  have hword (word : String) : isWordToken c.token word = false := by
    rw [isWordToken, h]
    rfl
  have hat : (c.token.kind == .mark .at) = false := by
    rw [h]
    rfl
  have hitem (self : Goal → Parser Node) : moduleItem self c = self (.statement true) c := by
    simp [moduleItem, run_bind, hword, hat]
  have hstatement (self : Goal → Parser Node) : statement self true c = self .block c := by
    have hmarks : decorators self c = .ok ([], c) := many_of_none (by simp [run_bind, hat])
    rw [statement, run_bind_of_ok run_here, run_bind_of_ok hmarks, run_bind_of_ok run_here,
      keywordStatement?, bind_assoc, run_bind_of_ok run_token, h]
    simp only [run_bind]
    cases self .block c <;> rfl
  cases depth with
  | zero => contradiction
  | succ depth =>
      have hread := (hitem (construct depth)).symm.trans hrun
      cases depth with
      | zero => contradiction
      | succ depth => exact ⟨depth, (hstatement (construct depth)).symm.trans hread⟩

theorem exists_statements_of_block (h : c.token.kind = .mark .leftBrace) {depth : Nat} {n : Node}
    {c' : Cursor} (hrun : construct depth .block c = .ok (n, c')) : ∃ inner flags items after,
      statementsToBrace (construct inner (.statement true)) { c.movedTo c.after with flags := flags } =
          .ok (items, after) ∧
        n = .mk .block ⟨c.token.span.lo, after.previousEnd⟩ items ∧
          c' = { after with flags := (c.movedTo c.after).flags } := by
  cases depth with
  | zero => exact nomatch hrun
  | succ depth =>
      have hbrace : expectMark .leftBrace c = .ok ((), c.movedTo c.after) := by
        simp [expectMark, takeMark, run_bind, run_map, h]
      change blockStatement (construct depth) c = .ok (n, c') at hrun
      rw [blockStatement, run_bind_of_ok run_here, run_bind_of_ok hbrace] at hrun
      obtain ⟨items, c₁, hitems, hrun⟩ := bind_eq_ok.mp hrun
      cases hrun
      obtain ⟨after, hinside, rfl⟩ := exists_of_withFlags hitems
      exact ⟨depth, _, items, after, hinside, rfl, rfl⟩

theorem exists_block_of_moduleBody (h : c.token.kind = .mark .leftBrace) {depth : Nat} {module : Node}
    {c' : Cursor} (hrun : moduleBody depth c = .ok (module, c')) : ∃ inner block c₁ fuel rest,
      construct inner .block c = .ok (block, c₁) ∧
        many.loop (do if (← token).kind == .endOfText then return none
                      return some (← construct depth .moduleItem)) (fuel + 1) c₁ = .ok (rest, c') ∧
          module = .mk .module ⟨0, c'.previousEnd⟩ (block :: rest) := by
  obtain ⟨items, c₂, hmany, hrun⟩ := bind_eq_ok.mp hrun
  cases hrun
  obtain ⟨found, c₁, hfirst, hall⟩ := exists_of_loop hmany
  rw [run_bind_of_ok run_token, h] at hfirst
  obtain ⟨block, c₃, hblock, hfirst⟩ := bind_eq_ok.mp hfirst
  cases hfirst
  obtain ⟨rest, hrest, rfl⟩ := hall
  obtain ⟨inner, hblock⟩ := exists_block_of_moduleItem h hblock
  exact ⟨inner, block, c₁, _, rest, hblock, hrest, rfl⟩

/-- A brace with no token behind it begins no module. -/
theorem not_moduleBody_of_invalid (h : c.token.kind = .mark .leftBrace)
    (hinvalid : (c.movedTo c.after).token.kind = .invalid) {depth : Nat} {module : Node} {c' : Cursor} :
    moduleBody depth c ≠ .ok (module, c') := by
  intro hrun
  obtain ⟨inner, block, c₁, fuel, rest, hblock, -, -⟩ := exists_block_of_moduleBody h hrun
  obtain ⟨inner, flags, items, after, hitems, -, -⟩ := exists_statements_of_block h hblock
  obtain ⟨all, c₂, hmany, -⟩ := bind_eq_ok.mp hitems
  obtain ⟨found, c₃, hfirst, -⟩ := exists_of_loop hmany
  obtain ⟨inside, hinside⟩ : ∃ inside : Cursor, inside = { c.movedTo c.after with flags := flags } :=
    ⟨_, rfl⟩
  have hkind : inside.token.kind = .invalid := by rw [hinside]; exact hinvalid
  have hstop : inside.token.kind.isStop = true := by rw [hkind]; rfl
  rw [← hinside] at hfirst
  obtain ⟨hend, -, -⟩ | ⟨-, s, hs, -⟩ := exists_of_statement (isPlain_of_isStop hstop) hfirst
  · exact absurd (hkind.symm.trans hend) nofun
  · obtain ⟨e, he⟩ := (refuses_construct hstop inner).2.2.2
    rw [he] at hs
    contradiction

end Parser

end Localization.Source
