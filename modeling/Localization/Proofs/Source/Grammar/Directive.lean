import Localization.Proofs.Source.Grammar.Call
import Localization.Proofs.Source.Grammar.Items

/-!
Directives in front of a text that changes, and an import of the hook behind them. The strings and semicolons
of directives are the same tokens whatever follows the last of them. Whatever stands behind the semicolon of the
import, it is read as an import of one name from the module that its string spells. Main statements:
`construct_moduleItem_import`, `ReadsDirectives.exists_front`, `exists_spelledImport_of_readsDirectives`.
-/

/-! ## Imports -/

namespace Localization.Source

open Text (byteLength)
open Text.Quoted (encode)

/-- What follows the word `import` in an import of the hook, in front of another text. -/
def importTail (space : String) (rest : List Char) : List Char :=
  " \x7b useTranslation \x7d from ".toList ++ ((encode space).toList ++ ';' :: rest)

/-- The place of the semicolon of an import of which the word `import` ends at `offset`. -/
def importEnd (offset : Nat) (space : String) : Nat :=
  offset + 25 + byteLength (encode space).toList

theorem nextToken_space (lineStart : Bool) (cs : List Char) (offset : Nat) :
    nextToken lineStart ⟨' ' :: cs, offset⟩ = nextToken lineStart ⟨cs, offset + 1⟩ := rfl

namespace Parser

variable {self : Goal → Parser Node} {c : Cursor} {space : String} {rest : List Char} {offset : Nat}

/-- The name of the hook as it is imported. -/
def spelledSpecifier (offset : Nat) : Node :=
  .mk (.importNamed (some "useTranslation") "useTranslation" false) ⟨offset + 3, offset + 17⟩ []

/-- The tree of an import of the hook. -/
def spelledImport (lo offset : Nat) (space : String) : Node :=
  .mk (.importDeclaration false (some space)) ⟨lo, importEnd offset space + 1⟩
    [spelledSpecifier offset, .leaf .moduleName ⟨offset + 25, importEnd offset space⟩]

theorem run_importedNames (tail : List Char) :
    importedNames (c.movedTo ⟨" \x7b useTranslation \x7d from ".toList ++ tail, offset⟩) =
      .ok ([spelledSpecifier offset], c.movedTo ⟨' ' :: tail, offset + 24⟩) := rfl

/-- The module of an import; no attributes follow it. -/
theorem run_moduleSource (self : Goal → Parser Node) (c : Cursor) (space : String) (rest : List Char)
    (offset : Nat) :
    moduleSource self (c.movedTo ⟨' ' :: ((encode space).toList ++ ';' :: rest), offset + 24⟩) =
      .ok ((some space, [.leaf .moduleName ⟨offset + 25, importEnd offset space⟩]),
        c.movedTo ⟨';' :: rest, importEnd offset space⟩) := by
  have hnext := nextToken_space false ((encode space).toList ++ ';' :: rest) (offset + 24)
  rw [nextToken_encode] at hnext
  have htoken : (c.movedTo ⟨' ' :: ((encode space).toList ++ ';' :: rest), offset + 24⟩).token =
      ⟨.string (some space), ⟨offset + 25, importEnd offset space⟩, false⟩ := by
    rw [Cursor.movedTo, hnext]
    rfl
  have hafter : (c.movedTo ⟨' ' :: ((encode space).toList ++ ';' :: rest), offset + 24⟩).after =
      ⟨';' :: rest, importEnd offset space⟩ := by
    rw [Cursor.movedTo, hnext]
    rfl
  generalize hplace : (⟨' ' :: ((encode space).toList ++ ';' :: rest), offset + 24⟩ : Place) = place at *
  have hword (word : String) : isWord word (c.movedTo ⟨';' :: rest, importEnd offset space⟩) =
      .ok (false, c.movedTo ⟨';' :: rest, importEnd offset space⟩) := rfl
  rw [moduleSource, run_bind_of_ok run_token, htoken]
  simp [leaf, run_bind, run_map, htoken, hafter, hword, Cursor.movedTo_movedTo, -run_isWord]

theorem run_semicolon_movedTo (c : Cursor) (rest : List Char) (offset : Nat) :
    semicolon (c.movedTo ⟨';' :: rest, offset⟩) = .ok ((), c.movedTo ⟨rest, offset + 1⟩) := rfl

theorem run_importItem_finish (self : Goal → Parser Node) (c : Cursor) (lo : Nat) (space : String)
    (rest : List Char) (offset : Nat) :
    importItem.finish self lo false [spelledSpecifier offset]
        (c.movedTo ⟨' ' :: ((encode space).toList ++ ';' :: rest), offset + 24⟩) =
      .ok (spelledImport lo offset space, c.movedTo ⟨rest, importEnd offset space + 1⟩) := by
  rw [importItem.finish, run_bind_of_ok (run_moduleSource ..)]
  dsimp only
  rw [run_bind_of_ok (run_semicolon_movedTo ..)]
  rfl

/-- An import of the hook, from the word `import` on. -/
theorem construct_moduleItem_import {depth : Nat} (htoken : c.token.kind = .name "import" false)
    (hafter : c.after = ⟨importTail space rest, offset⟩) :
    construct (depth + 1) .moduleItem c =
      .ok (spelledImport c.token.span.lo offset space, c.movedTo ⟨rest, importEnd offset space + 1⟩) := by
  have hpassed : bump c = .ok ((), c.movedTo ⟨importTail space rest, offset⟩) := by
    rw [run_bump, hafter]
  have hword : isWordToken c.token "import" = true := by simp [isWordToken, htoken]
  have hexpect : expectWord "import" c = .ok ((), c.movedTo ⟨importTail space rest, offset⟩) := by
    simp [expectWord, takeWord, run_bind, run_map, hword, hafter]
  have hnames : importedNames (c.movedTo ⟨importTail space rest, offset⟩) =
      .ok ([spelledSpecifier offset],
        c.movedTo ⟨' ' :: ((encode space).toList ++ ';' :: rest), offset + 24⟩) := run_importedNames _
  have hnoEquals : importEquals? c.token.span.lo c = .ok (none, c) := by
    have hhead : importEquals?.head c = .error ⟨offset + 1⟩ := by
      rw [importEquals?.head, run_bind_of_ok hexpect]
      rfl
    simp [importEquals?, attempt, run_bind, hhead]
  have hstring : isStringToken (c.movedTo ⟨importTail space rest, offset⟩).token = false := rfl
  have htype (word : String) : isWordToken (c.movedTo ⟨importTail space rest, offset⟩).token word = false :=
    rfl
  have hitem : importItem (construct depth) c.token.span.lo c =
      .ok (spelledImport c.token.span.lo offset space, c.movedTo ⟨rest, importEnd offset space + 1⟩) := by
    simp [importItem, attempt, takeWord, run_bind, hnoEquals, hexpect, hstring, htype, hnames,
      run_importItem_finish]
  have hnext : (nextToken false c.after).token.kind = .mark .leftBrace := by
    rw [hafter]
    rfl
  change moduleItem (construct depth) c = _
  simp [moduleItem, run_bind, hword, hnext, hitem]

end Parser

end Localization.Source

/-! ## Directives -/

namespace Localization.Source

open Text (byteLength)

/-! ### Blanks in front of a token -/

theorem Place.Reaches.length_le {p q : Place} (h : p.Reaches q) : q.rest.length ≤ p.rest.length := by
  obtain ⟨text, hrest, -⟩ := h
  rw [hrest, List.length_append]
  exact Nat.le_add_left _ _

/-- A mark is not spelled across a character that it does not contain. -/
theorem take_eq_iff_of_not_mem {mark : List Char} {d : Char} (h : d ∉ mark) (front tail other : List Char) :
    (front ++ d :: tail).take mark.length = mark ↔ (front ++ d :: other).take mark.length = mark := by
  induction front generalizing mark with
  | nil =>
      cases mark with
      | nil => simp
      | cons m rest => simp [List.ne_of_not_mem_cons h]
  | cons c front ih =>
      cases mark with
      | nil => simp
      | cons m rest => simpa using fun _ => ih (List.not_mem_of_not_mem_cons h)

/-- Characters that neither end a comment nor belong to what begins one. -/
def beginsDirectiveToken (d : Char) : Prop :=
  d ∈ ['\x22', '\x27', ';']

theorem skipBlanks_front {d : Char} (hd : beginsDirectiveToken d) {tail : List Char} (other : List Char)
    {front : List Char} {at_ : Blanks} {newline : Bool} {offset : Nat}
    (h : (skipBlanks at_ newline (front ++ d :: tail) offset).place.rest = d :: tail) :
    (skipBlanks at_ newline (front ++ d :: other) offset).place =
      ⟨d :: other, offset + byteLength front⟩ := by
  induction front generalizing at_ newline offset with
  | nil =>
      have hpassed (at_ : Blanks) (newline : Bool) :
          (skipBlanks at_ newline tail (offset + d.utf8Size)).place.rest ≠ d :: tail := by
        intro hrest
        have hlength := (reaches_skipBlanks at_ newline tail (offset + d.utf8Size)).length_le
        rw [hrest, List.length_cons] at hlength
        exact Nat.not_succ_le_self _ hlength
      cases at_ with
      | outside =>
          simp only [beginsDirectiveToken, List.mem_cons, List.not_mem_nil, or_false] at hd
          rcases hd with rfl | rfl | rfl <;> rfl
      | lineComment =>
          rw [List.nil_append, skipBlanks] at h
          split at h <;> exact (hpassed _ _ h).elim
      | blockOpening => exact (hpassed _ _ h).elim
      | blockComment =>
          rw [List.nil_append, skipBlanks] at h
          split at h <;> exact (hpassed _ _ h).elim
      | blockStar =>
          rw [List.nil_append, skipBlanks] at h
          split at h
          · exact (hpassed _ _ h).elim
          · split at h <;> exact (hpassed _ _ h).elim
  | cons c front ih =>
      have hhead : (front ++ d :: other).head? = (front ++ d :: tail).head? := by cases front <;> rfl
      have hmark : d ∉ ['!', '-', '-'] ∧ d ∉ ['-', '>'] := by
        simp only [beginsDirectiveToken, List.mem_cons, List.not_mem_nil, or_false] at hd
        rcases hd with rfl | rfl | rfl <;> decide
      have hopens := take_eq_iff_of_not_mem hmark.1 front tail other
      have hcloses := take_eq_iff_of_not_mem hmark.2 front tail other
      have hnext {at_ : Blanks} {newline : Bool}
          (h : (skipBlanks at_ newline (front ++ d :: tail) (offset + c.utf8Size)).place.rest = d :: tail) :
          (skipBlanks at_ newline (front ++ d :: other) (offset + c.utf8Size)).place =
            ⟨d :: other, offset + byteLength (c :: front)⟩ := by
        rw [ih h, byteLength, Nat.add_assoc]
      simp only [List.length_cons, List.length_nil] at hopens hcloses
      cases at_ <;> simp only [List.cons_append, skipBlanks, hhead, ← hopens, ← hcloses] at h ⊢
      case blockOpening => exact hnext h
      case outside =>
        split_ifs at h ⊢
        all_goals first
          | exact hnext h
          | exact absurd (congrArg List.length h) (by simp; omega)
      all_goals
        split_ifs at h ⊢
        all_goals exact hnext h

/-! ### Tokens whatever follows -/

/-- A text that is one token of a directive, whatever follows it. -/
structure IsWholeToken (text : List Char) (kind : TokenKind) : Prop where
  begins : ∃ d more, beginsDirectiveToken d ∧ text = d :: more
  reads : ∀ rest offset, tokenAt ⟨text ++ rest, offset⟩ = (kind, ⟨rest, offset + byteLength text⟩)

theorem isWholeToken_semicolon : IsWholeToken [';'] (.mark .semicolon) :=
  ⟨⟨';', [], by simp [beginsDirectiveToken], rfl⟩, fun _ _ => rfl⟩

/-- Strings in double quotes without escapes. -/
theorem isWholeToken_encode (s : String) : IsWholeToken (Text.Quoted.encode s).toList (.string (some s)) := by
  have htext := Text.Quoted.toList_encode s []
  rw [List.append_nil] at htext
  exact ⟨⟨'\x22', _, by simp [beginsDirectiveToken], htext⟩, tokenAt_encode s⟩

theorem nextToken_of_isWholeToken {text rest : List Char} {kind : TokenKind} {newline : Bool} {p : Place}
    (h : IsWholeToken text kind) (hstart : (nextToken newline p).start = text ++ rest) :
    ∃ front, p.rest = front ++ (text ++ rest) ∧ ∀ other,
      (nextToken newline ⟨front ++ (text ++ other), p.offset⟩).token.kind = kind ∧
      (nextToken newline ⟨front ++ (text ++ other), p.offset⟩).start = text ++ other ∧
      (nextToken newline ⟨front ++ (text ++ other), p.offset⟩).after =
        ⟨other, p.offset + byteLength (front ++ text)⟩ := by
  obtain ⟨d, more, hd, rfl⟩ := h.begins
  obtain ⟨front, hrest, -⟩ := reaches_skipBlanks .outside newline p.rest p.offset
  change p.rest = front ++ (nextToken newline p).start at hrest
  rw [hstart] at hrest
  refine ⟨front, hrest, fun other => ?_⟩
  have hblanks : (skipBlanks .outside newline (front ++ (d :: more ++ rest)) p.offset).place.rest =
      d :: more ++ rest := by
    rw [← hrest]
    exact hstart
  have hother := skipBlanks_front hd (more ++ other) hblanks
  have htoken := h.reads other (p.offset + byteLength front)
  rw [List.cons_append] at htoken ⊢
  simp only [nextToken, hother, htoken, Text.byteLength_append, Nat.add_assoc, true_and]

theorem kind_of_isWholeToken {text rest : List Char} {kind : TokenKind} {newline : Bool} {p : Place}
    (h : IsWholeToken text kind) (hstart : (nextToken newline p).start = text ++ rest) :
    (nextToken newline p).token.kind = kind := by
  have hplace : (skipBlanks .outside newline p.rest p.offset).place =
      ⟨text ++ rest, (skipBlanks .outside newline p.rest p.offset).place.offset⟩ := by
    rw [← hstart]
    rfl
  change (tokenAt (skipBlanks .outside newline p.rest p.offset).place).1 = kind
  rw [hplace, h.reads]

/-! ### Directives -/

/-- From one place to another only strings, semicolons and blanks in front of them are read. -/
inductive ReadsDirectives : Bool → Place → Place → Prop
  | done (newline : Bool) (p : Place) : ReadsDirectives newline p p
  | step {newline : Bool} {p q : Place} {kind : TokenKind} {text rest : List Char}
      (hkind : kind = .mark .semicolon ∨ ∃ value, kind = .string value) (htext : IsWholeToken text kind)
      (hstart : (nextToken newline p).start = text ++ rest)
      (h : ReadsDirectives false (nextToken newline p).after q) : ReadsDirectives newline p q

/-- Directives are read whatever follows them. -/
theorem ReadsDirectives.exists_front {newline : Bool} {p q : Place} (h : ReadsDirectives newline p q) :
    ∃ front, p.Passes front q ∧
      ∀ other, ReadsDirectives newline ⟨front ++ other, p.offset⟩ ⟨other, q.offset⟩ := by
  induction h with
  | done newline p => exact ⟨[], p.passes_nil, fun other => .done newline _⟩
  | @step newline p q kind text rest hkind htext hstart _ ih =>
      obtain ⟨blanks, hrest, hlocal⟩ := nextToken_of_isWholeToken htext hstart
      obtain ⟨front, ⟨hbehind, hoffset⟩, hother⟩ := ih
      have hplace : (⟨blanks ++ (text ++ rest), p.offset⟩ : Place) = p := by rw [← hrest]
      have hafter := (hlocal rest).2.2
      rw [hplace] at hafter
      rw [hafter] at hbehind hoffset hother
      dsimp only at hbehind hoffset hother
      refine ⟨blanks ++ text ++ front, ⟨?_, ?_⟩, fun other => ?_⟩
      · rw [hrest, hbehind, List.append_assoc, List.append_assoc]
      · rw [hoffset, Text.byteLength_append (blanks ++ text), Nat.add_assoc]
      · obtain ⟨-, hstart, hafter⟩ := hlocal (front ++ other)
        have happend : blanks ++ text ++ front ++ other = blanks ++ (text ++ (front ++ other)) := by
          simp only [List.append_assoc]
        rw [happend]
        refine .step hkind htext hstart ?_
        rw [hafter]
        exact hother other

/-- A reader is at the first token behind a place. -/
structure Cursor.At (newline : Bool) (p : Place) (c : Cursor) : Prop where
  token : c.token = (nextToken newline p).token
  after : c.after = (nextToken newline p).after

theorem Cursor.at_movedTo (c : Cursor) (p : Place) : (c.movedTo p).At false p :=
  ⟨rfl, rfl⟩

namespace Parser

variable {c c' : Cursor} {depth : Nat} {n : Node}

/-! ### Reading directives -/

theorem construct_moduleItem_semicolon (h : c.token.kind = .mark .semicolon)
    (hrun : construct (depth + 2) .moduleItem c = .ok (n, c')) : c' = c.movedTo c.after := by
  have hword (word : String) : isWordToken c.token word = false := by
    rw [isWordToken, h]
    rfl
  have hat : (c.token.kind == .mark .at) = false := by
    rw [h]
    rfl
  have hmarks (self : Goal → Parser Node) : decorators self c = .ok ([], c) :=
    many_of_none (by simp [run_bind, hat])
  have hkeyword (self : Goal → Parser Node) (lo : Nat) : keywordStatement? self lo c =
      .ok (some (.mk .emptyStatement ⟨lo, c.after.offset⟩ []), c.movedTo c.after) := by
    rw [keywordStatement?, run_bind_of_ok run_token, h]
    rfl
  change moduleItem (construct (depth + 1)) c = _ at hrun
  have hitem : moduleItem (construct (depth + 1)) c = statement (construct depth) true c := by
    simp [moduleItem, run_bind, hword, hat]
    rfl
  rw [hitem, statement, run_bind_of_ok run_here, run_bind_of_ok (hmarks _), run_bind_of_ok run_here,
    run_bind_of_ok (hkeyword _ _)] at hrun
  cases hrun
  rfl

/-- A string that nothing continues is an item with the semicolon behind it. -/
theorem construct_moduleItem_string {value : Option String} (h : c.token.kind = .string value)
    (hend : (c.movedTo c.after).token.kind.endsOperand = true)
    (hcomma : ((c.movedTo c.after).token.kind == .mark .comma) = false)
    (hrun : construct (depth + 5) .moduleItem c = .ok (n, c')) :
    c' = if (c.movedTo c.after).token.kind = .mark .semicolon
      then (c.movedTo c.after).movedTo (c.movedTo c.after).after else c.movedTo c.after := by
  have hplain : c.token.kind.isPlain = true := by
    rw [h]
    rfl
  have hitem : construct (depth + 5) .moduleItem c = statement (construct (depth + 3)) true c := by
    change moduleItem (construct (depth + 4)) c = _
    simp [moduleItem, run_bind, not_word_of_isPlain _ hplain, not_mark_of_isPlain hplain (m := .at) (by decide)]
    rfl
  have hstatement : statement (construct (depth + 3)) true c =
      expressionStatement (construct (depth + 3)) c.token.span.lo c := by
    simp [statement, run_bind, decorators_of_isPlain hplain, keywordStatement?_of_isPlain hplain,
      anyDeclaration?_of_isPlain hplain, not_word_of_isPlain _ hplain]
  have hstring := construct_expression (construct_string depth h hend) hcomma
  rw [hitem, hstatement, expressionStatement, run_bind_of_ok run_here, run_bind_of_ok run_isIdentifier,
    identifierOf?_of_isPlain hplain, run_bind_of_ok run_peek] at hrun
  simp only [Option.isSome_none, Bool.false_and, Bool.false_eq_true, if_false] at hrun
  rw [run_bind_of_ok hstring] at hrun
  obtain ⟨ends, hends⟩ : ∃ ends, canEnd (c.movedTo c.after) = .ok (ends, c.movedTo c.after) := ⟨_, rfl⟩
  rw [run_bind_of_ok hends] at hrun
  cases ends with
  | false => simp [run_bind, operator?_of_endsOperand hend] at hrun
  | true =>
      by_cases hsemicolon : (c.movedTo c.after).token.kind = .mark .semicolon
      · simp [semicolon, takeMark, run_bind, hends, hsemicolon] at hrun
        rw [if_pos hsemicolon, hrun.2]
      · have hmark := beq_false_of_ne hsemicolon
        simp [semicolon, takeMark, run_bind, hends, hmark] at hrun
        rw [if_neg hsemicolon, hrun.2]

section

variable {newline : Bool} {p q : Place} {offset : Nat} {space : String} {rest : List Char}
  (hkind : ∀ newline, (nextToken newline q).token.kind = .name "import" false)

include hkind

theorem kind_of_readsDirectives (h : ReadsDirectives newline p q) :
    (nextToken newline p).token.kind = .name "import" false ∨
      (nextToken newline p).token.kind = .mark .semicolon ∨
        ∃ value, (nextToken newline p).token.kind = .string value := by
  cases h with
  | done => exact .inl (hkind newline)
  | step htoken htext hstart _ => exact .inr (by rwa [kind_of_isWholeToken htext hstart])

/-- An import of the hook behind directives is an item. Where a semicolon is read first, it may belong to
the directive in front of it, and the items begin behind it. -/
theorem exists_spelledImport_of_readsDirectives (h : ReadsDirectives newline p q)
    (hafter : ∀ newline, (nextToken newline q).after = ⟨importTail space rest, offset⟩) :
    (∀ {c items}, c.At newline p → ReadsItems (depth + 5) c items →
        ∃ lo, spelledImport lo offset space ∈ items) ∧
      ((nextToken newline p).token.kind = .mark .semicolon → ∀ {c items},
        c.At false (nextToken newline p).after → ReadsItems (depth + 5) c items →
          ∃ lo, spelledImport lo offset space ∈ items) := by
  induction h with
  | done newline q =>
      refine ⟨fun {c items} hc hitems => ?_, fun hsemicolon => ?_⟩
      · have htoken : c.token.kind = .name "import" false := by rw [hc.token, hkind]
        cases items with
        | nil => exact absurd (htoken.symm.trans hitems) nofun
        | cons n items =>
            obtain ⟨-, c₁, hrun, -⟩ := hitems
            rw [construct_moduleItem_import htoken (hc.after.trans (hafter newline))] at hrun
            cases hrun
            exact ⟨_, List.mem_cons_self⟩
      · rw [hkind] at hsemicolon
        contradiction
  | @step newline p q kind text rest' htoken htext hstart hbehind ih =>
      obtain ⟨hnext, hsemicolon⟩ := ih hkind hafter
      refine ⟨fun {c items} hc hitems => ?_, fun _ => hnext⟩
      have hread : c.token.kind = kind := by rw [hc.token, kind_of_isWholeToken htext hstart]
      cases items with
      | nil =>
          have hend : c.token.kind = .endOfText := hitems
          rw [hread] at hend
          rcases htoken with rfl | ⟨value, rfl⟩ <;> contradiction
      | cons n items =>
          obtain ⟨-, c₁, hrun, hitems⟩ := hitems
          suffices h : ∃ lo, spelledImport lo offset space ∈ items from
            h.imp fun lo hlo => List.mem_cons_of_mem n hlo
          have hat : (c.movedTo c.after).At false (nextToken newline p).after := by
            rw [← hc.after]
            exact c.at_movedTo _
          rcases htoken with rfl | ⟨value, rfl⟩
          · rw [construct_moduleItem_semicolon hread hrun] at hitems
            exact hnext hat hitems
          · have hfollows := kind_of_readsDirectives hkind hbehind
            rw [← hat.token] at hfollows hsemicolon
            have hends : (c.movedTo c.after).token.kind.endsOperand = true ∧
                ((c.movedTo c.after).token.kind == .mark .comma) = false := by
              rcases hfollows with h | h | ⟨value, h⟩ <;> rw [h] <;> exact ⟨rfl, rfl⟩
            rw [construct_moduleItem_string hread hends.1 hends.2 hrun] at hitems
            split at hitems
            · next hmark =>
                refine hsemicolon hmark ?_ hitems
                rw [← hat.after]
                exact Cursor.at_movedTo ..
            · exact hnext hat hitems

end

end Parser

end Localization.Source
