import Localization.Proofs.Source.Grammar.Call

/-!
How readers run at small sources that consist of a call of the lookup function, of an element with such a call
in braces, and of an object with such a call as the key of a property.
-/

namespace Localization.Source

namespace Parser

variable {key : String} {rest : List Char} {offset depth : Nat} {self : Goal → Parser Node} {c c₁ : Cursor}

/-! ### Modules of one expression -/

/-- An expression that begins with the name of the lookup function, an element or an array is a statement. -/
theorem moduleBody_of_expression (depth : Nat) {e : Node} (hkind : c.token.kind = .name "t" false ∨
      c.token.kind = .mark .less ∨ c.token.kind = .mark .leftBracket)
    (hcolon : ((c.movedTo c.after).token.kind == .mark .colon) = false)
    (hrun : construct depth .expression c = .ok (e, c₁)) (hend : c₁.token.kind = .endOfText) :
    moduleBody (depth + 2) c =
      .ok (.mk .module ⟨0, c₁.previousEnd⟩
        [.mk .expressionStatement ⟨c.token.span.lo, c₁.previousEnd⟩ [e]], c₁) := by
  have hword (word : String) (h : "t" ≠ word) : isWordToken c.token word = false := by
    rcases hkind with hkind | hkind | hkind <;> simp [isWordToken, hkind, h]
  have hwords : ∀ word ∈ declarationWords, isWordToken c.token word = false := by
    intro word hmem
    refine hword word ?_
    rintro rfl
    exact absurd hmem (by decide)
  have hat : (c.token.kind == .mark .at) = false := by
    rcases hkind with hkind | hkind | hkind <;> rw [hkind] <;> rfl
  have hmore : c.token.kind ≠ .endOfText := by
    rcases hkind with hkind | hkind | hkind <;> simp [hkind]
  have hmarks : decorators (construct depth) c = .ok ([], c) := many_of_none (by simp [run_bind, hat])
  have hkeyword (lo : Nat) : keywordStatement? (construct depth) lo c = .ok (none, c) := by
    rw [keywordStatement?, run_bind_of_ok run_token]
    rcases hkind with hkind | hkind | hkind <;> rw [hkind] <;> rfl
  have hends : canEnd c₁ = .ok (true, c₁) := by
    simp [canEnd, run_bind, hend]
  have hsemicolon : semicolon c₁ = .ok ((), c₁) := by
    simp [semicolon, run_bind, run_map, hends, run_takeMark_of_ne (m := .semicolon) (by rw [hend]; rfl)]
  have hlabel : expressionStatement (construct depth) c.token.span.lo c =
      .ok (.mk .expressionStatement ⟨c.token.span.lo, c₁.previousEnd⟩ [e], c₁) := by
    have hnext : ((nextToken false c.after).token.kind == .mark .colon) = false := hcolon
    rw [expressionStatement, run_bind_of_ok run_here, run_bind_of_ok run_isIdentifier,
      run_bind_of_ok run_peek, hnext, Bool.and_false]
    simp [run_bind, hrun, hends, hsemicolon]
  have hitem : construct (depth + 2) .moduleItem c =
      .ok (.mk .expressionStatement ⟨c.token.span.lo, c₁.previousEnd⟩ [e], c₁) := by
    change moduleItem (construct (depth + 1)) c = _
    have hstatement : construct (depth + 1) (.statement true) c =
        .ok (.mk .expressionStatement ⟨c.token.span.lo, c₁.previousEnd⟩ [e], c₁) := by
      change statement (construct depth) true c = _
      simp [statement, run_bind, hmarks, hkeyword, hword, anyDeclaration?_of_words hwords, hlabel]
    simp [moduleItem, run_bind, hword, hat, hstatement]
  have hitems : many (do if (← token).kind == .endOfText then return none
                         return some (← construct (depth + 2) .moduleItem)) c =
      .ok ([.mk .expressionStatement ⟨c.token.span.lo, c₁.previousEnd⟩ [e]], c₁) :=
    many_of_one (b := c₁) (by simp [run_bind, run_map, hmore, hitem]) (by simp [run_bind, hend])
  rw [moduleBody, run_bind_of_ok hitems]
  rfl

/-! ### Elements -/

/-- A tag begins an operand. -/
theorem beginsOperand_of_tag (hkind : c.token.kind = .mark .less) (hjsx : c.flags.jsx = true)
    (hname : (c.movedTo c.after).token.kind = .name "p" false)
    (hnext : ((c.movedTo (c.movedTo c.after).after).token.kind == .mark .comma) = false ∧
      ((c.movedTo (c.movedTo c.after).after).token.kind == .mark .equal) = false ∧
      isWordToken (c.movedTo (c.movedTo c.after).after).token "extends" = false) :
    BeginsOperand self c := by
  obtain ⟨hcomma, hequal, hextends⟩ := hnext
  have hword (word : String) : isWordToken c.token word = false := by simp [isWordToken, hkind]
  have hnone : identifierOf? c.token = none := by simp [identifierOf?, nameOf?, hkind]
  have hnoTypes : beginsTypeParameters c = .ok (false, c) := by
    have hconst : isWordToken (c.movedTo c.after).token "const" = false := by simp [isWordToken, hname]
    have hidentifier : identifier (c.movedTo c.after) = .ok ("p", c.movedTo (c.movedTo c.after).after) := by
      rw [identifier, run_bind_of_ok run_token]
      simp only [identifierOf?, nameOf?, hname]
      rfl
    simp [beginsTypeParameters, looksLike, takeWord, expectWord, run_bind, run_expectMark hkind,
      hconst, hidentifier, hcomma, hequal, hextends]
  have hnamed : (nameOf? (nextToken false c.after).token).isSome = true := by
    have hnext : (nextToken false c.after).token.kind = .name "p" false := hname
    simp [nameOf?, hnext]
  refine ⟨?_, hword _, ?_⟩
  · simp [arrowFunction?, run_bind, hword, hnone, hkind, hjsx, hnoTypes, hnamed]
  · rw [unaryExpression, run_bind_of_ok run_token, hkind]
    simp [run_bind, hjsx]

theorem run_tagName (name : ScannedName) (hscan : scanTagName ⟨c.start, c.token.span.lo⟩ = some name)
    (hcolon : ((c.movedTo name.after).token.kind == .mark .colon) = false)
    (hdot : ((c.movedTo name.after).token.kind == .mark .dot) = false) :
    tagName c = .ok (name.text, c.movedTo name.after) := by
  have hword : tagWord c = .ok (name.text, c.movedTo name.after) := by
    rw [tagWord, run_bind_of_ok run_get, hscan]
    rfl
  have hothers : many (do unless ← takeMark .dot do return none
                          return some (← tagWord)) (c.movedTo name.after) =
      .ok ([], c.movedTo name.after) := many_of_none (by simp [run_bind, run_takeMark_of_ne hdot])
  rw [tagName, run_bind_of_ok hword, run_bind_of_ok (run_takeMark_of_ne hcolon)]
  simp only [Bool.false_eq_true, if_false]
  rw [run_bind_of_ok hothers]
  rfl

theorem run_expectMark_at {m : Mark} {p q : Place} (hkind : (nextToken false p).token.kind = .mark m)
    (hafter : (nextToken false p).after = q) : expectMark m (c.movedTo p) = .ok ((), c.movedTo q) := by
  rw [run_expectMark (c := c.movedTo p) hkind, Cursor.movedTo_movedTo]
  exact congrArg (fun place => Except.ok ((), c.movedTo place)) hafter

theorem run_takeMark_at {m : Mark} {p q : Place} (hkind : (nextToken false p).token.kind = .mark m)
    (hafter : (nextToken false p).after = q) : takeMark m (c.movedTo p) = .ok (true, c.movedTo q) := by
  rw [run_takeMark (c := c.movedTo p) hkind, Cursor.movedTo_movedTo]
  exact congrArg (fun place => Except.ok (true, c.movedTo place)) hafter

/-- No text stands in front of a brace. -/
theorem run_childText_brace (hafter : c.after = ⟨'\x7b' :: rest, offset⟩) :
    childText c = .ok ([], c.movedTo ⟨'\x7b' :: rest, offset⟩) := by
  rw [childText, run_bind_of_ok run_get, hafter]
  rfl

theorem run_childText_tag (hafter : c.after = ⟨'<' :: '/' :: rest, offset⟩) :
    childText c = .ok ([], c.movedTo ⟨'<' :: '/' :: rest, offset⟩) := by
  rw [childText, run_bind_of_ok run_get, hafter]
  rfl

/-- Braces with the call in them are all that stands between tags. -/
theorem run_children (key : String) (rest : List Char) (offset depth : Nat)
    (hafter : c.after = ⟨'\x7b' :: callText key ('\x7d' :: '<' :: '/' :: 'p' :: rest), offset⟩) :
    children (construct (depth + 5)) c =
      .ok ([.mk .jsxContainer ⟨offset, stringEnd (offset + 1) key + 1 + 1⟩ [spelledCall (offset + 1) key]],
        c.movedTo ⟨'<' :: '/' :: 'p' :: rest, stringEnd (offset + 1) key + 1 + 1⟩) := by
  have hbrace : (c.movedTo ⟨'\x7d' :: '<' :: '/' :: 'p' :: rest, stringEnd (offset + 1) key + 1⟩).after =
      ⟨'<' :: '/' :: 'p' :: rest, stringEnd (offset + 1) key + 1 + 1⟩ := by
    rw [Cursor.movedTo, spells_rightBrace]
  have htext := run_childText_tag hbrace
  rw [Cursor.movedTo_movedTo] at htext
  generalize hclosing : stringEnd (offset + 1) key + 1 + 1 = closing at htext
  have hless : isMark .leftBrace (c.movedTo ⟨'<' :: '/' :: 'p' :: rest, closing⟩) =
      .ok (false, c.movedTo ⟨'<' :: '/' :: 'p' :: rest, closing⟩) := rfl
  have hslash : peek (c.movedTo ⟨'<' :: '/' :: 'p' :: rest, closing⟩) =
      .ok (⟨.mark .slash, ⟨closing + 1, closing + 2⟩, false⟩,
        c.movedTo ⟨'<' :: '/' :: 'p' :: rest, closing⟩) := rfl
  have hmore : many (do
      if ← isMark .leftBrace then
        let e ← childContainer (construct (depth + 5))
        return some (e :: (← childText))
      else
        if (← peek).kind == .mark .slash then return none
        let e ← construct (depth + 5) .element
        return some (e :: (← childText)))
      (c.movedTo ⟨'\x7b' :: callText key ('\x7d' :: '<' :: '/' :: 'p' :: rest), offset⟩) =
        .ok ([[.mk .jsxContainer ⟨offset, closing⟩ [spelledCall (offset + 1) key]]],
          c.movedTo ⟨'<' :: '/' :: 'p' :: rest, closing⟩) := by
    refine many_of_one (b := c.movedTo ⟨'<' :: '/' :: 'p' :: rest, closing⟩) ?_ ?_
    · rw [run_bind_of_ok (run_isMark_movedTo spells_leftBrace .leftBrace _ _)]
      simp only [beq_self_eq_true, if_true]
      rw [run_bind_of_ok run_childContainer, run_bind_of_ok htext, hclosing]
      rfl
    · rw [run_bind_of_ok hless]
      simp only [Bool.false_eq_true, if_false]
      rw [run_bind_of_ok hslash]
      rfl
  rw [children, run_bind_of_ok (run_childText_brace hafter), run_bind_of_ok hmore]
  rfl

/-- An element with the call in braces between its tags, up to its last `>`. -/
theorem run_jsxElement_children (key : String) (rest : List Char) (offset depth : Nat)
    (hkind : c.token.kind = .mark .less)
    (hafter : c.after =
      ⟨'p' :: '>' :: '\x7b' :: callText key ('\x7d' :: '<' :: '/' :: 'p' :: '>' :: rest), offset⟩) :
    ∃ whole opening name closing container, jsxElement (construct (depth + 5)) c =
      .ok (.mk .jsxElement whole [.mk .jsxOpening opening [.mk .jsxName name []],
          .mk .jsxContainer container [spelledCall (offset + 3) key], .mk .jsxClosing closing []],
        c.movedTo ⟨'>' :: rest, stringEnd (offset + 3) key + 1 + 1 + 3⟩) := by
  have hopening := run_expectMark hkind
  rw [hafter] at hopening
  generalize hinside : '\x7b' :: callText key ('\x7d' :: '<' :: '/' :: 'p' :: '>' :: rest) = inside
    at hopening
  have hgreater (m : Mark) : isMark m (c.movedTo ⟨'>' :: inside, offset + 1⟩) =
      .ok (TokenKind.mark .greater == .mark m, c.movedTo ⟨'>' :: inside, offset + 1⟩) := rfl
  have hname (m : Mark) : isMark m (c.movedTo ⟨'p' :: '>' :: inside, offset⟩) =
      .ok (false, c.movedTo ⟨'p' :: '>' :: inside, offset⟩) := rfl
  have htag : tagName (c.movedTo ⟨'p' :: '>' :: inside, offset⟩) =
      .ok ("p", c.movedTo ⟨'>' :: inside, offset + 1⟩) :=
    run_tagName ⟨"p", false, ⟨'>' :: inside, offset + 1⟩⟩ rfl rfl rfl
  have hvalues : tagAttributes (construct (depth + 5)) (c.movedTo ⟨'>' :: inside, offset + 1⟩) =
      .ok ([], c.movedTo ⟨'>' :: inside, offset + 1⟩) := many_of_none (by
    rw [run_bind_of_ok (hgreater _), run_bind_of_ok (hgreater _)]
    rfl)
  have hchildren := run_children key ('>' :: rest) (offset + 2) depth
    (c := c.movedTo ⟨'>' :: inside, offset + 1⟩) (by rw [← hinside]; rfl)
  rw [Cursor.movedTo_movedTo] at hchildren
  have hsame : offset + 3 = offset + 2 + 1 := rfl
  rw [hsame]
  generalize stringEnd (offset + 2 + 1) key + 1 + 1 = closing at hchildren
  have hless : expectMark .less (c.movedTo ⟨'<' :: '/' :: 'p' :: '>' :: rest, closing⟩) =
      .ok ((), c.movedTo ⟨'/' :: 'p' :: '>' :: rest, closing + 1⟩) := run_expectMark_at rfl rfl
  have hslash : expectMark .slash (c.movedTo ⟨'/' :: 'p' :: '>' :: rest, closing + 1⟩) =
      .ok ((), c.movedTo ⟨'p' :: '>' :: rest, closing + 1 + 1⟩) := run_expectMark_at rfl rfl
  have hend : tagName (c.movedTo ⟨'p' :: '>' :: rest, closing + 1 + 1⟩) =
      .ok ("p", c.movedTo ⟨'>' :: rest, closing + 3⟩) :=
    run_tagName ⟨"p", false, ⟨'>' :: rest, closing + 3⟩⟩ rfl rfl rfl
  have hlast : isMark .greater (c.movedTo ⟨'>' :: rest, closing + 3⟩) =
      .ok (true, c.movedTo ⟨'>' :: rest, closing + 3⟩) := rfl
  refine ⟨⟨c.token.span.lo, closing + 4⟩, ⟨c.token.span.lo, offset + 2⟩, ⟨offset, offset + 1⟩,
    ⟨closing, closing + 4⟩, ⟨offset + 2, closing⟩, ?_⟩
  simp [jsxElement, requireMark, takeMark, nodeThrough, run_bind, run_map, hopening, hname, htag, hgreater,
    hvalues, hchildren, hless, hslash, hend, hlast, -run_isMark]
  exact ⟨rfl, ⟨rfl, rfl, rfl⟩, rfl, rfl⟩

/-- An attribute with the call in braces as its value. -/
theorem run_tagAttribute (c : Cursor) (key : String) (rest : List Char) (offset depth : Nat) :
    ∃ whole name container, tagAttribute (construct (depth + 5)) (c.movedTo ⟨' ' :: 'a' :: '=' :: '\x7b' :: callText key ('\x7d' :: rest), offset⟩) =
    .ok (.mk .jsxAttribute whole [.mk .jsxName name [],
        .mk .jsxContainer container [spelledCall (offset + 4) key]],
      c.movedTo ⟨rest, stringEnd (offset + 4) key + 1 + 1⟩) := by
  have hvalue := run_attributeValue c key rest (offset + 3) depth
  have hsame : offset + 4 = offset + 3 + 1 := rfl
  rw [hsame]
  generalize callText key ('\x7d' :: rest) = inside at hvalue
  generalize stringEnd (offset + 3 + 1) key + 1 + 1 = closing at hvalue
  generalize hplace : (⟨' ' :: 'a' :: '=' :: '\x7b' :: inside, offset⟩ : Place) = place
  have hbrace : takeMark .leftBrace (c.movedTo place) = .ok (false, c.movedTo place) :=
    run_takeMark_of_ne (by rw [← hplace]; rfl)
  have hword : tagWord (c.movedTo place) = .ok ("a", c.movedTo ⟨'=' :: '\x7b' :: inside, offset + 2⟩) := by
    rw [← hplace]
    rfl
  have hcolon : takeMark .colon (c.movedTo ⟨'=' :: '\x7b' :: inside, offset + 2⟩) =
      .ok (false, c.movedTo ⟨'=' :: '\x7b' :: inside, offset + 2⟩) := run_takeMark_of_ne rfl
  have hequal : takeMark .equal (c.movedTo ⟨'=' :: '\x7b' :: inside, offset + 2⟩) =
      .ok (true, c.movedTo ⟨'\x7b' :: inside, offset + 3⟩) := run_takeMark_at rfl rfl
  refine ⟨⟨(c.movedTo place).token.span.lo, closing⟩, ⟨(c.movedTo place).token.span.lo, offset + 2⟩,
    ⟨offset + 3, closing⟩, ?_⟩
  simp [tagAttribute, run_bind, hbrace, hword, hcolon, hequal, hvalue]
  exact ⟨rfl, rfl⟩

/-- An element with the call in braces as the value of an attribute, up to its `>`. -/
theorem run_jsxElement_attribute (key : String) (rest : List Char) (offset depth : Nat)
    (hkind : c.token.kind = .mark .less)
    (hafter : c.after =
      ⟨'p' :: ' ' :: 'a' :: '=' :: '\x7b' :: callText key ('\x7d' :: '/' :: '>' :: rest), offset⟩) :
    ∃ whole opening name entry title container, jsxElement (construct (depth + 5)) c =
      .ok (.mk .jsxElement whole [.mk .jsxOpening opening [.mk .jsxName name [],
          .mk .jsxAttribute entry [.mk .jsxName title [],
            .mk .jsxContainer container [spelledCall (offset + 5) key]]]],
        c.movedTo ⟨'>' :: rest, stringEnd (offset + 5) key + 1 + 1 + 1⟩) := by
  have hopening := run_expectMark hkind
  rw [hafter] at hopening
  obtain ⟨entry, title, container, hattribute⟩ := run_tagAttribute c key ('/' :: '>' :: rest) (offset + 1) depth
  have hsame : offset + 5 = offset + 1 + 4 := by omega
  rw [hsame]
  generalize callText key ('\x7d' :: '/' :: '>' :: rest) = inside at hattribute hopening
  generalize hrest : (⟨' ' :: 'a' :: '=' :: '\x7b' :: inside, offset + 1⟩ : Place) = place at hattribute
  generalize stringEnd (offset + 1 + 4) key + 1 + 1 = closing at hattribute
  have hname (m : Mark) : isMark m (c.movedTo ⟨'p' :: ' ' :: 'a' :: '=' :: '\x7b' :: inside, offset⟩) =
      .ok (false, c.movedTo ⟨'p' :: ' ' :: 'a' :: '=' :: '\x7b' :: inside, offset⟩) := rfl
  have hvalue (m : Mark) : isMark m (c.movedTo place) = .ok (false, c.movedTo place) := by
    rw [← hrest]
    rfl
  have htag : tagName (c.movedTo ⟨'p' :: ' ' :: 'a' :: '=' :: '\x7b' :: inside, offset⟩) =
      .ok ("p", c.movedTo place) :=
    run_tagName ⟨"p", false, place⟩ (by rw [← hrest]; rfl) (by rw [← hrest]; rfl)
      (by rw [← hrest]; rfl)
  have hslash (m : Mark) : isMark m (c.movedTo ⟨'/' :: '>' :: rest, closing⟩) =
      .ok (TokenKind.mark .slash == .mark m, c.movedTo ⟨'/' :: '>' :: rest, closing⟩) := rfl
  have hpassed : takeMark .slash (c.movedTo ⟨'/' :: '>' :: rest, closing⟩) =
      .ok (true, c.movedTo ⟨'>' :: rest, closing + 1⟩) := run_takeMark_at rfl rfl
  have hlast : isMark .greater (c.movedTo ⟨'>' :: rest, closing + 1⟩) =
      .ok (true, c.movedTo ⟨'>' :: rest, closing + 1⟩) := rfl
  have hvalues : tagAttributes (construct (depth + 5)) (c.movedTo place) =
      .ok ([.mk .jsxAttribute entry [.mk .jsxName title [],
        .mk .jsxContainer container [spelledCall (offset + 1 + 4) key]]],
        c.movedTo ⟨'/' :: '>' :: rest, closing⟩) := by
    refine many_of_one (b := c.movedTo ⟨'/' :: '>' :: rest, closing⟩) ?_ ?_
    · rw [run_bind_of_ok (hvalue _), run_bind_of_ok (hvalue _)]
      simp only [Bool.or_self, Bool.false_eq_true, if_false]
      rw [run_bind_of_ok hattribute]
      rfl
    · rw [run_bind_of_ok (hslash _), run_bind_of_ok (hslash _)]
      rfl
  refine ⟨⟨c.token.span.lo, closing + 2⟩, ⟨c.token.span.lo, closing + 2⟩, ⟨offset, offset + 1⟩, entry,
    title, container, ?_⟩
  simp [jsxElement, requireMark, nodeThrough, run_bind, run_map, hopening, hname, hvalue, htag,
    hvalues, hpassed, hlast, -run_isMark]
  exact ⟨rfl, rfl, by rw [← hrest]; rfl⟩

/-- An element is an operand, of which the last `>` is passed. -/
theorem construct_element {e : Node} (hkind : c.token.kind = .mark .less) (hjsx : c.flags.jsx = true)
    (hrun : construct depth .element c = .ok (e, c.movedTo ⟨'>' :: rest, offset⟩))
    (hend : (nextToken false ⟨rest, offset + 1⟩).token.kind.endsOperand = true) :
    construct (depth + 1) .leftHandSide c = .ok (e, c.movedTo ⟨rest, offset + 1⟩) := by
  have hlast : bump (c.movedTo ⟨'>' :: rest, offset⟩) = .ok ((), c.movedTo ⟨rest, offset + 1⟩) := rfl
  have hprimary : primary (construct depth) c = .ok (e, c.movedTo ⟨rest, offset + 1⟩) := by
    rw [primary, run_bind_of_ok run_token, hkind]
    simp [run_bind, run_map, hjsx, hrun, hlast, -run_bump]
  change operand (construct depth) true c = _
  rw [operand, run_bind_of_ok hprimary, extending_of_none (access?_of_endsOperand hend true _)]

/-- An element that ends with its source is a statement. -/
theorem moduleBody_of_element (depth : Nat) {e : Node} (hkind : c.token.kind = .mark .less) (hjsx : c.flags.jsx = true)
    (hname : (c.movedTo c.after).token.kind = .name "p" false)
    (hnext : ((c.movedTo (c.movedTo c.after).after).token.kind == .mark .comma) = false ∧
      ((c.movedTo (c.movedTo c.after).after).token.kind == .mark .equal) = false ∧
      isWordToken (c.movedTo (c.movedTo c.after).after).token "extends" = false)
    (hrun : construct depth .element c = .ok (e, c.movedTo ⟨['>'], offset⟩)) :
    ∃ whole span, moduleBody (depth + 5) c =
      .ok (.mk .module whole [.mk .expressionStatement span [e]], c.movedTo ⟨[], offset + 1⟩) := by
  have hcolon : ((c.movedTo c.after).token.kind == .mark .colon) = false := by
    rw [hname]
    rfl
  have hassignment := construct_assignment (beginsOperand_of_tag hkind hjsx hname hnext)
    (construct_element hkind hjsx hrun rfl) rfl
  exact ⟨_, _,
    moduleBody_of_expression (depth + 3) (.inr (.inl hkind)) hcolon (construct_expression hassignment rfl) rfl⟩

/-! ### Objects -/

theorem beginsOperand_of_kind (hkind : c.token.kind = .number ∨ c.token.kind = .mark .leftBrace ∨
    c.token.kind = .mark .leftBracket) : BeginsOperand self c := by
  have hword (word : String) : isWordToken c.token word = false := by
    rcases hkind with hkind | hkind | hkind <;> simp [isWordToken, hkind]
  have hnone : identifierOf? c.token = none := by
    rcases hkind with hkind | hkind | hkind <;> simp [identifierOf?, nameOf?, hkind]
  have hmark : c.token.kind ≠ .mark .leftParen ∧ c.token.kind ≠ .mark .less := by
    rcases hkind with hkind | hkind | hkind <;> simp [hkind]
  refine ⟨?_, hword _, ?_⟩
  · simp [arrowFunction?, run_bind, hword, hnone, hmark]
  · rw [unaryExpression, run_bind_of_ok run_token]
    rcases hkind with hkind | hkind | hkind <;> rw [hkind]

/-- What is read between brackets, wherever it stands. -/
theorem run_bracketed {α : Type} {p : Parser α} {a : α} (c : Cursor) (start stop : Place)
    (h : ∀ c : Cursor, p (c.movedTo start) = .ok (a, c.movedTo stop)) :
    bracketed p (c.movedTo start) = .ok (a, c.movedTo stop) :=
  run_withFlags (c := c.movedTo start)
    (h { c with flags := { c.flags with
      withoutIn := false, colonAhead := false, withoutConditional := false } })

/-- The tree of `[t("…")]:0` with the string `key`, read from `lo` on. -/
def spelledProperty (lo : Nat) (key : String) : Node :=
  let hi := stringEnd (lo + 1) key + 1 + 1
  .mk .keyValue ⟨lo, hi + 2⟩
    [.mk .keyComputed ⟨lo, hi⟩ [spelledCall (lo + 1) key], .mk .literal ⟨hi + 1, hi + 2⟩ []]

/-- A property with the call in brackets as its key. -/
theorem run_objectProperty (c : Cursor) (key : String) (rest : List Char) (offset depth : Nat) :
    objectProperty (construct (depth + 4))
    (c.movedTo ⟨'[' :: callText key (']' :: ':' :: '0' :: '\x7d' :: rest), offset⟩) =
      .ok (spelledProperty offset key,
        c.movedTo ⟨'\x7d' :: rest, stringEnd (offset + 1) key + 1 + 1 + 2⟩) := by
  have hkey := run_propertyKey c key (':' :: '0' :: '\x7d' :: rest) offset depth
  rw [spelledProperty]
  generalize callText key (']' :: ':' :: '0' :: '\x7d' :: rest) = inside at hkey
  generalize stringEnd (offset + 1) key + 1 + 1 = closing at hkey
  have hbracket : (c.movedTo ⟨'[' :: inside, offset⟩).token = ⟨.mark .leftBracket, ⟨offset, offset + 1⟩, false⟩ :=
    rfl
  have hnumber : construct (depth + 4) .assignment (c.movedTo ⟨'0' :: '\x7d' :: rest, closing + 1⟩) =
      .ok (.leaf .literal ⟨closing + 1, closing + 2⟩, c.movedTo ⟨'\x7d' :: rest, closing + 2⟩) := by
    refine construct_assignment (beginsOperand_of_kind (.inl rfl)) ?_ rfl
    change operand (construct (depth + 2)) true _ = _
    have hprimary : primary (construct (depth + 2)) (c.movedTo ⟨'0' :: '\x7d' :: rest, closing + 1⟩) =
        .ok (.leaf .literal ⟨closing + 1, closing + 2⟩, c.movedTo ⟨'\x7d' :: rest, closing + 2⟩) := rfl
    rw [operand, run_bind_of_ok hprimary, extending_of_none (access?_of_endsOperand rfl true _)]
  have hcolon (m : Mark) : isMark m (c.movedTo ⟨':' :: '0' :: '\x7d' :: rest, closing⟩) =
      .ok (TokenKind.mark .colon == .mark m, c.movedTo ⟨':' :: '0' :: '\x7d' :: rest, closing⟩) := rfl
  have hpassed : takeMark .colon (c.movedTo ⟨':' :: '0' :: '\x7d' :: rest, closing⟩) =
      .ok (true, c.movedTo ⟨'0' :: '\x7d' :: rest, closing + 1⟩) := run_takeMark_at rfl rfl
  have hword (word : String) : isWordToken (c.movedTo ⟨'[' :: inside, offset⟩).token word = false := by
    simp [isWordToken, hbracket]
  have hmark (m : Mark) (hm : m ≠ .leftBracket) : takeMark m (c.movedTo ⟨'[' :: inside, offset⟩) =
      .ok (false, c.movedTo ⟨'[' :: inside, offset⟩) :=
    run_takeMark_of_ne (by rw [hbracket]; exact beq_false_of_ne (by simpa using hm.symm))
  simp [objectProperty, run_bind, hmark, hword, hkey, hcolon, hpassed, hnumber, -run_isMark]
  exact ⟨⟨rfl, rfl⟩, rfl⟩

/-- An object with the call in brackets as the key of its only property. -/
theorem run_object (c : Cursor) (key : String) (rest : List Char) (offset depth : Nat) :
    construct (depth + 6) .assignment
    (c.movedTo ⟨'\x7b' :: '[' :: callText key (']' :: ':' :: '0' :: '\x7d' :: ']' :: rest), offset⟩) =
      .ok (.mk .object ⟨offset, stringEnd (offset + 2) key + 1 + 1 + 2 + 1⟩ [spelledProperty (offset + 1) key],
        c.movedTo ⟨']' :: rest, stringEnd (offset + 2) key + 1 + 1 + 2 + 1⟩) := by
  have hproperty (c : Cursor) := run_objectProperty c key (']' :: rest) (offset + 1) depth
  have hsame : offset + 2 = offset + 1 + 1 := rfl
  rw [hsame]
  generalize callText key (']' :: ':' :: '0' :: '\x7d' :: ']' :: rest) = inside at hproperty
  generalize stringEnd (offset + 1 + 1) key + 1 + 1 + 2 = closing at hproperty
  have hitems := run_bracketed c ⟨'[' :: inside, offset + 1⟩ ⟨']' :: rest, closing + 1⟩
    fun c => run_commaList_of_one .rightBrace rfl (hproperty c) rfl
  have hbump : bump (c.movedTo ⟨'\x7b' :: '[' :: inside, offset⟩) =
      .ok ((), c.movedTo ⟨'[' :: inside, offset + 1⟩) := rfl
  have hprimary : primary (construct (depth + 4)) (c.movedTo ⟨'\x7b' :: '[' :: inside, offset⟩) =
      .ok (.mk .object ⟨offset, closing + 1⟩ [spelledProperty (offset + 1) key],
        c.movedTo ⟨']' :: rest, closing + 1⟩) := by
    have htoken : (c.movedTo ⟨'\x7b' :: '[' :: inside, offset⟩).token =
        ⟨.mark .leftBrace, ⟨offset, offset + 1⟩, false⟩ := rfl
    rw [primary, run_bind_of_ok run_token, htoken]
    dsimp only
    rw [run_bind_of_ok hbump, run_bind_of_ok hitems]
    rfl
  refine construct_assignment (beginsOperand_of_kind (.inr (.inl rfl))) ?_ rfl
  change operand (construct (depth + 4)) true _ = _
  rw [operand, run_bind_of_ok hprimary, extending_of_none (access?_of_endsOperand rfl true _)]

/-- An array with such an object as its only element. -/
theorem run_array (key : String) (rest : List Char) (offset depth : Nat)
    (hkind : c.token.kind = .mark .leftBracket)
    (hafter : c.after =
      ⟨'\x7b' :: '[' :: callText key (']' :: ':' :: '0' :: '\x7d' :: ']' :: rest), offset⟩)
    (hend : (nextToken false
      ⟨rest, stringEnd (offset + 2) key + 1 + 1 + 2 + 1 + 1⟩).token.kind.endsOperand = true) :
    ∃ whole argument object, construct (depth + 8) .assignment c =
      .ok (.mk .array whole [.mk (.argument false) argument
          [.mk .object object [spelledProperty (offset + 1) key]]],
        c.movedTo ⟨rest, stringEnd (offset + 2) key + 1 + 1 + 2 + 1 + 1⟩) := by
  have hobject (c : Cursor) := run_object c key rest offset depth
  generalize callText key (']' :: ':' :: '0' :: '\x7d' :: ']' :: rest) = inside at hobject hafter
  generalize stringEnd (offset + 2) key + 1 + 1 + 2 + 1 = closing at hobject hend
  have hargument (c : Cursor) : arrayElement (construct (depth + 6)) (c.movedTo ⟨'\x7b' :: '[' :: inside, offset⟩) =
      .ok (.mk (.argument false) ⟨offset, closing⟩
        [.mk .object ⟨offset, closing⟩ [spelledProperty (offset + 1) key]], c.movedTo ⟨']' :: rest, closing⟩) := by
    have hcomma : isMark .comma (c.movedTo ⟨'\x7b' :: '[' :: inside, offset⟩) =
        .ok (false, c.movedTo ⟨'\x7b' :: '[' :: inside, offset⟩) := rfl
    have hspread : takeMark .ellipsis (c.movedTo ⟨'\x7b' :: '[' :: inside, offset⟩) =
        .ok (false, c.movedTo ⟨'\x7b' :: '[' :: inside, offset⟩) := run_takeMark_of_ne rfl
    rw [arrayElement, run_bind_of_ok hcomma]
    simp only [Bool.false_eq_true, if_false]
    rw [argument, run_bind_of_ok run_here, run_bind_of_ok hspread, run_bind_of_ok (hobject c)]
    rfl
  have hitems := run_bracketed c ⟨'\x7b' :: '[' :: inside, offset⟩ ⟨rest, closing + 1⟩
    fun c => run_commaList_of_one .rightBracket rfl (hargument c) rfl
  have hprimary : primary (construct (depth + 6)) c =
      .ok (.mk .array ⟨c.token.span.lo, closing + 1⟩ [.mk (.argument false) ⟨offset, closing⟩
          [.mk .object ⟨offset, closing⟩ [spelledProperty (offset + 1) key]]],
        c.movedTo ⟨rest, closing + 1⟩) := by
    rw [primary, run_bind_of_ok run_token, hkind]
    dsimp only
    rw [run_bind_of_ok run_bump, hafter, run_bind_of_ok hitems]
    rfl
  have hoperand : construct (depth + 7) .leftHandSide c =
      .ok (.mk .array ⟨c.token.span.lo, closing + 1⟩ [.mk (.argument false) ⟨offset, closing⟩
          [.mk .object ⟨offset, closing⟩ [spelledProperty (offset + 1) key]]],
        c.movedTo ⟨rest, closing + 1⟩) := by
    change operand (construct (depth + 6)) true c = _
    rw [operand, run_bind_of_ok hprimary, extending_of_none (access?_of_endsOperand hend true _)]
  exact ⟨_, _, _, construct_assignment (beginsOperand_of_kind (.inr (.inr hkind))) hoperand hend⟩

end Parser

/-! ### Sources -/

theorem exists_parseModule {jsx : Bool} {source : List Char} {p : Node → Prop}
    (h : ∀ depth, ∃ module c,
      Parser.moduleBody (depth + 20) (Parser.firstCursor jsx source) = .ok (module, c) ∧ p module) :
    ∃ module, parseModule jsx source = .ok module ∧ p module := by
  have hdepth : 16 * (Text.byteLength source + 4) = 16 * Text.byteLength source + 44 + 20 := by omega
  obtain ⟨module, c, hrun, hp⟩ := h (16 * Text.byteLength source + 44)
  exact ⟨module, Parser.parseModule_eq_ok_iff.mpr ⟨c, by rw [hdepth]; exact hrun⟩, hp⟩

end Localization.Source
