import Localization.Proofs.Source.Grammar.Run
import Localization.Proofs.Source.Quoted

/-!
How readers run at a call of the lookup function with a string, and at the braces and brackets around such a
call. What follows the call only matters by its first token, and what follows a brace or a bracket not at all.
-/

namespace Localization.Source

open Text (byteLength)
open Text.Quoted (encode)

/-- The place behind the string of a call that begins at `lo`. -/
def stringEnd (lo : Nat) (key : String) : Nat :=
  lo + 2 + byteLength (encode key).toList

/-- The argument of `t("…")` with the string `key`, where the call begins at `lo`. -/
def spelledArgument (lo : Nat) (key : String) : Node :=
  .mk (.argument false) ⟨lo + 2, stringEnd lo key⟩
    [.leaf (.string (some key)) ⟨lo + 2, stringEnd lo key⟩]

/-- The tree of `t("…")` with the string `key`, read from `lo` on. -/
def spelledCall (lo : Nat) (key : String) : Node :=
  .mk .call ⟨lo, stringEnd lo key + 1⟩
    [.mk (.identifier "t") ⟨lo, lo + 1⟩ [], spelledArgument lo key]

/-- The text of `t("…")` with the string `key`, in front of another text. -/
def callText (key : String) (rest : List Char) : List Char :=
  't' :: '(' :: ((encode key).toList ++ ')' :: rest)

theorem nextToken_encode (lineStart : Bool) (s : String) (rest : List Char) (offset : Nat) :
    nextToken lineStart ⟨(encode s).toList ++ rest, offset⟩ =
      { token := ⟨.string (some s), ⟨offset, offset + byteLength (encode s).toList⟩, lineStart⟩
        start := (encode s).toList ++ rest
        after := ⟨rest, offset + byteLength (encode s).toList⟩ } := by
  have hblanks : skipBlanks .outside lineStart ((encode s).toList ++ rest) offset =
      ⟨⟨(encode s).toList ++ rest, offset⟩, lineStart⟩ := by
    rw [Text.Quoted.toList_encode]
    rfl
  rw [nextToken, hblanks]
  simp only [tokenAt_encode]

/-- A character that is a mark by itself, whatever follows. -/
def Spells (char : Char) (m : Mark) : Prop :=
  ∀ rest offset, nextToken false ⟨char :: rest, offset⟩ =
    { token := ⟨.mark m, ⟨offset, offset + 1⟩, false⟩, start := char :: rest, after := ⟨rest, offset + 1⟩ }

theorem spells_leftBrace : Spells '\x7b' .leftBrace := fun _ _ => rfl

theorem spells_rightBrace : Spells '\x7d' .rightBrace := fun _ _ => rfl

theorem spells_rightBracket : Spells ']' .rightBracket := fun _ _ => rfl

theorem Cursor.movedTo_movedTo (c : Cursor) (p q : Place) : (c.movedTo p).movedTo q = c.movedTo q := rfl

namespace Parser

variable {α : Type} {self : Goal → Parser Node} {c c₁ : Cursor}

/-! ### Repetitions of one step, flags -/

theorem many_of_one {step : Parser (Option α)} {a : α} {b d : Cursor} (hfirst : step c = .ok (some a, b))
    (hlast : step b = .ok (none, d)) : many step c = .ok ([a], d) := by
  rw [many, many.loop, run_bind_of_ok hfirst]
  simp only [many.loop, run_bind_of_ok hlast, run_bind, run_pure]

theorem extending_of_one {first a : α} {step : α → Parser (Option α)}
    (hfirst : step first c = .ok (some a, c₁)) (hlast : step a c₁ = .ok (none, c₁)) :
    extending first step c = .ok (a, c₁) := by
  rw [extending, extending.loop, run_bind_of_ok hfirst]
  simp only [extending.loop, run_bind_of_ok hlast]
  rfl

theorem run_takeMark {m : Mark} (h : c.token.kind = .mark m) :
    takeMark m c = .ok (true, c.movedTo c.after) := by
  simp [takeMark, run_bind, run_map, h]

theorem run_takeMark_of_ne {m : Mark} (h : (c.token.kind == .mark m) = false) :
    takeMark m c = .ok (false, c) := by
  simp [takeMark, run_bind, h]

theorem run_expectMark {m : Mark} (h : c.token.kind = .mark m) :
    expectMark m c = .ok ((), c.movedTo c.after) := by
  simp [expectMark, run_bind, run_takeMark h]

theorem run_takeMark_movedTo {char : Char} {m : Mark} (h : Spells char m) (rest : List Char)
    (offset : Nat) : takeMark m (c.movedTo ⟨char :: rest, offset⟩) =
      .ok (true, c.movedTo ⟨rest, offset + 1⟩) := by
  have hnext := h rest offset
  have hafter : (c.movedTo ⟨char :: rest, offset⟩).after = ⟨rest, offset + 1⟩ := by
    rw [Cursor.movedTo, hnext]
  rw [run_takeMark (by rw [Cursor.movedTo, hnext]), Cursor.movedTo_movedTo, hafter]

theorem run_expectMark_movedTo {char : Char} {m : Mark} (h : Spells char m) (rest : List Char)
    (offset : Nat) : expectMark m (c.movedTo ⟨char :: rest, offset⟩) =
      .ok ((), c.movedTo ⟨rest, offset + 1⟩) := by
  simp [expectMark, run_bind, run_takeMark_movedTo h]

theorem run_isMark_movedTo {char : Char} {m : Mark} (h : Spells char m) (m' : Mark) (rest : List Char)
    (offset : Nat) : isMark m' (c.movedTo ⟨char :: rest, offset⟩) =
      .ok (TokenKind.mark m == .mark m', c.movedTo ⟨char :: rest, offset⟩) := by
  have htoken : (c.movedTo ⟨char :: rest, offset⟩).token.kind = .mark m := by
    rw [Cursor.movedTo, h rest offset]
  rw [run_isMark, htoken]

theorem run_commaList_of_one (close : Mark) {item : Parser α} {a : α}
    (hopen : (c.token.kind == .mark close) = false) (hitem : item c = .ok (a, c₁))
    (hclose : c₁.token.kind = .mark close) :
    commaList close item c = .ok ([a], c₁.movedTo c₁.after) := by
  rw [commaList, run_bind_of_ok (many_of_one (a := a) (b := c₁) (d := c₁) ?_ ?_)]
  · rw [run_bind_of_ok (run_expectMark hclose)]
    rfl
  · simp [run_bind, hopen, hitem, hclose]
  · simp [run_bind, hclose]

/-- A reader that moves to a place with other flags has its own flags again behind it. -/
theorem run_withFlags {p : Parser α} {change : Flags → Flags} {a : α} {place : Place}
    (h : p { c with flags := change c.flags } =
      .ok (a, Cursor.movedTo { c with flags := change c.flags } place)) :
    withFlags change p c = .ok (a, c.movedTo place) := by
  change (p >>= fun a => (do modify fun c' => { c' with flags := c.flags }; return a))
    { c with flags := change c.flags } = _
  rw [run_bind_of_ok h]
  rfl

/-! ### Operands without operators -/

/-- An expression begins here that is neither an arrow function nor has an operator in front of it. -/
structure BeginsOperand (reader : Goal → Parser Node) (c : Cursor) : Prop where
  noArrow : arrowFunction? reader c = .ok (none, c)
  noYield : isWordToken c.token "yield" = false
  unary : unaryExpression reader c = postfixExpression reader c

theorem beginsOperand_of_isPlain (h : c.token.kind.isPlain = true) : BeginsOperand self c :=
  ⟨arrowFunction?_of_isPlain h, not_word_of_isPlain _ h, unaryExpression_of_isPlain h⟩

theorem run_postfixExpression {e : Node} (hrun : self .leftHandSide c = .ok (e, c₁))
    (hend : c₁.token.kind.endsOperand = true) : postfixExpression self c = .ok (e, c₁) := by
  simp [postfixExpression, run_bind, hrun, not_mark_of_endsOperand hend (m := .plusPlus) (by decide),
    not_mark_of_endsOperand hend (m := .minusMinus) (by decide)]

theorem run_assignmentExpression {e : Node} (hbegins : BeginsOperand self c)
    (hrun : self .leftHandSide c = .ok (e, c₁)) (hend : c₁.token.kind.endsOperand = true) :
    assignmentExpression self c = .ok (e, c₁) := by
  have hunary : unaryExpression self c = .ok (e, c₁) :=
    hbegins.unary.trans (run_postfixExpression hrun hend)
  have htest : conditionalExpression self c = .ok (e, c₁) := by
    simp [conditionalExpression, binaryExpression, run_bind, hunary, joined_of_endsOperand hend,
      conditionalRest_of_endsOperand hend]
  simp [assignmentExpression, run_bind, hbegins.noArrow, hbegins.noYield, htest,
    operator?_of_endsOperand hend, not_mark_of_endsOperand hend (m := .arrow) (by decide)]

/-- An operand in front of a token that continues nothing is an assignment by itself. -/
theorem construct_assignment {depth : Nat} {e : Node} (hbegins : BeginsOperand (construct depth) c)
    (hrun : construct depth .leftHandSide c = .ok (e, c₁)) (hend : c₁.token.kind.endsOperand = true) :
    construct (depth + 1) .assignment c = .ok (e, c₁) :=
  run_assignmentExpression hbegins hrun hend

theorem construct_expression {depth : Nat} {e : Node}
    (hrun : construct depth .assignment c = .ok (e, c₁))
    (hcomma : (c₁.token.kind == .mark .comma) = false) :
    construct (depth + 1) .expression c = .ok (e, c₁) := by
  have hlast : many (do unless ← takeMark .comma do return none
                        return some (← construct depth .assignment)) c₁ = .ok ([], c₁) :=
    many_of_none (by simp [run_bind, run_takeMark_of_ne hcomma])
  change sequenceExpression (construct depth) c = .ok (e, c₁)
  rw [sequenceExpression, run_bind_of_ok run_here, run_bind_of_ok hrun, run_bind_of_ok hlast]
  rfl

/-! ### A string and a call -/

theorem construct_string (depth : Nat) {value : Option String} (h : c.token.kind = .string value)
    (hend : (c.movedTo c.after).token.kind.endsOperand = true) :
    construct (depth + 2) .assignment c =
      .ok (.leaf (.string value) c.token.span, c.movedTo c.after) := by
  have hprimary : primary (construct depth) c =
      .ok (.leaf (.string value) c.token.span, c.movedTo c.after) := by
    rw [primary, run_bind_of_ok run_token, h]
    rfl
  refine construct_assignment (beginsOperand_of_isPlain (by rw [h]; rfl)) ?_ hend
  change operand (construct depth) true c = _
  rw [operand, run_bind_of_ok hprimary, extending_of_none (access?_of_endsOperand hend true _)]

variable {key : String} {rest : List Char} {offset depth : Nat}

theorem run_argument
    (htoken : c.token = ⟨.string (some key), ⟨offset + 2, stringEnd offset key⟩, false⟩)
    (hafter : c.after = ⟨')' :: rest, stringEnd offset key⟩) :
    argument (construct (depth + 2)) c =
      .ok (spelledArgument offset key, c.movedTo c.after) := by
  have hend : (c.movedTo c.after).token.kind.endsOperand = true := by
    rw [hafter]
    rfl
  have hstring := construct_string depth (by rw [htoken]) hend
  rw [argument, run_bind_of_ok run_here, run_bind_of_ok (run_takeMark_of_ne (by rw [htoken]; rfl)),
    run_bind_of_ok hstring, run_node, htoken, hafter]
  rfl

/-- The arguments of the call up to the closing parenthesis. -/
theorem run_arguments
    (htoken : c.token = ⟨.string (some key), ⟨offset + 2, stringEnd offset key⟩, false⟩)
    (hafter : c.after = ⟨')' :: rest, stringEnd offset key⟩) :
    bracketed (commaList .rightParen (argument (construct (depth + 2)))) c =
      .ok ([spelledArgument offset key], c.movedTo ⟨rest, stringEnd offset key + 1⟩) := by
  refine run_withFlags ?_
  generalize hinside : ({ c with flags := { c.flags with
    withoutIn := false, colonAhead := false, withoutConditional := false } } : Cursor) = inside
  have htoken' : inside.token = ⟨.string (some key), ⟨offset + 2, stringEnd offset key⟩, false⟩ := by
    rw [← hinside, htoken]
  have hafter' : inside.after = ⟨')' :: rest, stringEnd offset key⟩ := by rw [← hinside, hafter]
  rw [run_commaList_of_one .rightParen (by rw [htoken']; rfl) (run_argument htoken' hafter')
    (by rw [hafter']; rfl), hafter']
  rfl

/-- The arguments of the call, from the opening parenthesis on. -/
theorem run_callArguments (depth : Nat) (rest : List Char) (hopen : c.token.kind = .mark .leftParen)
    (hafter : c.after = ⟨(encode key).toList ++ ')' :: rest, offset + 2⟩) :
    callArguments (construct (depth + 2)) c =
      .ok ([spelledArgument offset key], c.movedTo ⟨rest, stringEnd offset key + 1⟩) := by
  have hnext := nextToken_encode false key (')' :: rest) (offset + 2)
  rw [callArguments, run_bind_of_ok (run_expectMark hopen), hafter]
  rw [run_arguments (by rw [Cursor.movedTo, hnext]; rfl) (by rw [Cursor.movedTo, hnext]; rfl),
    Cursor.movedTo_movedTo]

theorem beginsOperand_of_name (name : String) (htoken : c.token.kind = .name name false)
    (hname : identifierOf? c.token = some name)
    (hwords : name ∉ ["async", "yield", "typeof", "void", "delete", "await"])
    (hnext : ((c.movedTo c.after).token.kind == .mark .arrow) = false) : BeginsOperand self c := by
  simp only [List.mem_cons, List.not_mem_nil, or_false, not_or] at hwords
  obtain ⟨hasync, hyield, htypeof, hvoid, hdelete, hawait⟩ := hwords
  have hword {word : String} (h : ¬name = word) : isWordToken c.token word = false := by
    simp [isWordToken, htoken, h]
  have hsole : ∃ e, soleParameter c = .error e := by
    have hidentifier : identifier c = .ok (name, c.movedTo c.after) := by
      simp [identifier, run_bind, run_map, hname]
    cases hline : (c.movedTo c.after).token.newlineBefore <;>
      simp [soleParameter, expectMark, run_bind, run_map, hidentifier, hline, run_takeMark_of_ne hnext]
  obtain ⟨e, hsole⟩ := hsole
  refine ⟨?_, hword hyield, ?_⟩
  · simp [arrowFunction?, attempt, run_bind, hword hasync, hname, hsole]
  · rw [unaryExpression, run_bind_of_ok run_token, htoken]
    simp [htypeof, hvoid, hdelete, hawait]

/-- A call of the lookup function begins at an offset, and a text follows it of which the first token
continues no operand. -/
structure AtCall (c : Cursor) (offset : Nat) (key : String) (rest : List Char) : Prop where
  token : ∃ newline, c.token = ⟨.name "t" false, ⟨offset, offset + 1⟩, newline⟩
  after : c.after = ⟨'(' :: ((encode key).toList ++ ')' :: rest), offset + 1⟩
  ends : (nextToken false ⟨rest, stringEnd offset key + 1⟩).token.kind.endsOperand = true

theorem atCall_movedTo (c : Cursor)
    (h : (nextToken false ⟨rest, stringEnd offset key + 1⟩).token.kind.endsOperand = true) :
    AtCall (c.movedTo ⟨callText key rest, offset⟩) offset key rest :=
  ⟨⟨false, rfl⟩, rfl, h⟩

/-- The call is read as such. -/
theorem AtCall.construct_assignment (h : AtCall c offset key rest) :
    construct (depth + 4) .assignment c =
      .ok (spelledCall offset key, c.movedTo ⟨rest, stringEnd offset key + 1⟩) := by
  obtain ⟨⟨newline, htoken⟩, hafter, hend⟩ := h
  have hparen : (c.movedTo c.after).token.kind = .mark .leftParen := by rw [hafter]; rfl
  have hprimary : primary (construct (depth + 2)) c =
      .ok (.mk (.identifier "t") ⟨offset, offset + 1⟩ [], c.movedTo c.after) := by
    rw [primary, run_bind_of_ok run_token, htoken]
    change primary.identifierNode offset c = _
    have hidentifier : identifier c = .ok ("t", c.movedTo c.after) := by
      rw [identifier, run_bind_of_ok run_token, htoken]
      rfl
    rw [primary.identifierNode, run_bind_of_ok hidentifier, run_node, hafter]
    rfl
  have hcall : access? (construct (depth + 2)) true (.mk (.identifier "t") ⟨offset, offset + 1⟩ [])
      (c.movedTo c.after) = .ok (some (spelledCall offset key),
        c.movedTo ⟨rest, stringEnd offset key + 1⟩) := by
    have harguments := run_callArguments depth rest hparen (by rw [hafter]; rfl)
    rw [access?, run_bind_of_ok run_token, hparen]
    simp only [if_true, Cursor.movedTo_movedTo] at harguments ⊢
    rw [run_bind_of_ok harguments]
    rfl
  refine Parser.construct_assignment (beginsOperand_of_name "t" (by rw [htoken])
    (by rw [htoken]; rfl) (by decide) (by rw [hparen]; rfl)) ?_ hend
  change operand (construct (depth + 2)) true c = _
  rw [operand, run_bind_of_ok hprimary, extending_of_one hcall (access?_of_endsOperand hend true _)]

theorem AtCall.construct_expression (h : AtCall c offset key rest)
    (hcomma : ((nextToken false ⟨rest, stringEnd offset key + 1⟩).token.kind == .mark .comma) = false) :
    construct (depth + 5) .expression c =
      .ok (spelledCall offset key, c.movedTo ⟨rest, stringEnd offset key + 1⟩) :=
  Parser.construct_expression h.construct_assignment hcomma

theorem AtCall.withFlags (h : AtCall c offset key rest) (flags : Flags) :
    AtCall { c with flags := flags } offset key rest :=
  ⟨h.token, h.after, h.ends⟩

theorem AtCall.bracketed_expression (h : AtCall c offset key rest)
    (hcomma : ((nextToken false ⟨rest, stringEnd offset key + 1⟩).token.kind == .mark .comma) = false) :
    bracketed (construct (depth + 5) .expression) c =
      .ok (spelledCall offset key, c.movedTo ⟨rest, stringEnd offset key + 1⟩) :=
  run_withFlags ((h.withFlags _).construct_expression hcomma)

theorem AtCall.bracketed_assignment (h : AtCall c offset key rest) :
    bracketed (construct (depth + 4) .assignment) c =
      .ok (spelledCall offset key, c.movedTo ⟨rest, stringEnd offset key + 1⟩) :=
  run_withFlags (h.withFlags _).construct_assignment

/-! ### Braces and brackets around a call -/

theorem atCall_of_spells {char : Char} {m : Mark} (h : Spells char m)
    (hm : (TokenKind.mark m).endsOperand = true) (c : Cursor) :
    AtCall (c.movedTo ⟨callText key (char :: rest), offset⟩) offset key (char :: rest) := by
  refine atCall_movedTo c ?_
  rw [h rest]
  exact hm

/-- The call in front of a closing brace. -/
theorem run_call_to_brace : bracketed (construct (depth + 5) .expression)
    (c.movedTo ⟨callText key ('\x7d' :: rest), offset⟩) =
      .ok (spelledCall offset key, c.movedTo ⟨'\x7d' :: rest, stringEnd offset key + 1⟩) := by
  have hat : AtCall (c.movedTo ⟨callText key ('\x7d' :: rest), offset⟩) offset key ('\x7d' :: rest) :=
    atCall_of_spells spells_rightBrace rfl c
  rw [hat.bracketed_expression (by rw [spells_rightBrace rest]; rfl), Cursor.movedTo_movedTo]

/-- Braces with the call in them as the value of an attribute. -/
theorem run_attributeValue (c : Cursor) (key : String) (rest : List Char) (offset depth : Nat) :
    attributeValue (construct (depth + 5))
    (c.movedTo ⟨'\x7b' :: callText key ('\x7d' :: rest), offset⟩) =
      .ok (.mk .jsxContainer ⟨offset, stringEnd (offset + 1) key + 1 + 1⟩ [spelledCall (offset + 1) key],
        c.movedTo ⟨rest, stringEnd (offset + 1) key + 1 + 1⟩) := by
  have hstart : (c.movedTo ⟨'\x7b' :: callText key ('\x7d' :: rest), offset⟩).start =
      '\x7b' :: callText key ('\x7d' :: rest) := rfl
  have hlo : (c.movedTo ⟨'\x7b' :: callText key ('\x7d' :: rest), offset⟩).token.span.lo = offset := rfl
  rw [attributeValue, run_bind_of_ok run_get, hstart, hlo]
  simp [run_bind, run_takeMark_movedTo spells_leftBrace, run_call_to_brace,
    run_expectMark_movedTo spells_rightBrace]
  rfl

/-- Braces with the call in them between tags; the closing brace is not passed. -/
theorem run_childContainer : childContainer (construct (depth + 5))
    (c.movedTo ⟨'\x7b' :: callText key ('\x7d' :: rest), offset⟩) =
      .ok (.mk .jsxContainer ⟨offset, stringEnd (offset + 1) key + 1 + 1⟩ [spelledCall (offset + 1) key],
        c.movedTo ⟨'\x7d' :: rest, stringEnd (offset + 1) key + 1⟩) := by
  have hlo : (c.movedTo ⟨'\x7b' :: callText key ('\x7d' :: rest), offset⟩).token.span.lo = offset := rfl
  have hname (m : Mark) : isMark m (c.movedTo ⟨callText key ('\x7d' :: rest), offset + 1⟩) =
      .ok (false, c.movedTo ⟨callText key ('\x7d' :: rest), offset + 1⟩) := rfl
  have hspan : (c.movedTo ⟨'\x7d' :: rest, stringEnd (offset + 1) key + 1⟩).token.span.hi =
      stringEnd (offset + 1) key + 1 + 1 := by
    rw [Cursor.movedTo, spells_rightBrace rest]
  rw [childContainer, run_bind_of_ok run_here, hlo,
    run_bind_of_ok (run_expectMark_movedTo spells_leftBrace _ _), run_bind_of_ok (hname _)]
  simp [takeMark, requireMark, nodeThrough, run_bind, run_map, hname, run_call_to_brace, hspan,
    run_isMark_movedTo spells_rightBrace, -run_isMark]

/-- Brackets with the call in them as the key of a property. -/
theorem run_propertyKey (c : Cursor) (key : String) (rest : List Char) (offset depth : Nat) :
    propertyKey (construct (depth + 4)) false
    (c.movedTo ⟨'[' :: callText key (']' :: rest), offset⟩) =
      .ok (.mk .keyComputed ⟨offset, stringEnd (offset + 1) key + 1 + 1⟩ [spelledCall (offset + 1) key],
        c.movedTo ⟨rest, stringEnd (offset + 1) key + 1 + 1⟩) := by
  have htoken : (c.movedTo ⟨'[' :: callText key (']' :: rest), offset⟩).token =
      ⟨.mark .leftBracket, ⟨offset, offset + 1⟩, false⟩ := rfl
  have hafter : (c.movedTo ⟨'[' :: callText key (']' :: rest), offset⟩).after =
      ⟨callText key (']' :: rest), offset + 1⟩ := rfl
  have hinside : bracketed (construct (depth + 4) .assignment)
      (c.movedTo ⟨callText key (']' :: rest), offset + 1⟩) =
        .ok (spelledCall (offset + 1) key, c.movedTo ⟨']' :: rest, stringEnd (offset + 1) key + 1⟩) := by
    have hat : AtCall (c.movedTo ⟨callText key (']' :: rest), offset + 1⟩) (offset + 1) key (']' :: rest) :=
      atCall_of_spells spells_rightBracket rfl c
    rw [hat.bracketed_assignment, Cursor.movedTo_movedTo]
  rw [propertyKey, run_bind_of_ok run_token, htoken]
  simp [run_bind, hafter, Cursor.movedTo_movedTo, hinside, run_expectMark_movedTo spells_rightBracket]
  rfl

end Parser

end Localization.Source
