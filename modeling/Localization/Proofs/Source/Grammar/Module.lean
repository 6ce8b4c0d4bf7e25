import Localization.Source.Grammar.Module
import Localization.Proofs.Source.Grammar.Statement

/-!
Texts and functions are in place in a module, and what stands between tags is written there. Main
statements: `inPlace_parseFile`, `clear_parseFile`.
-/

open Std.Do

set_option mvcgen.warning false

namespace Localization.Source.Parser

variable {self : Goal → Parser Node} [ReadsParts self] [g : Gap]

@[spec]
theorem moduleExportName_spec : Keeps g moduleExportName (Placed g) := by
  mvcgen [moduleExportName]
  all_goals simp_all

@[spec]
theorem importSpecifier_typed_spec : Keeps g importSpecifier.typed (Placed g) := by
  mvcgen [importSpecifier.typed]
  all_goals simp_all

@[spec]
theorem importSpecifier_spec : Keeps g importSpecifier (Placed g) := by
  mvcgen [importSpecifier]
  all_goals simp_all

@[spec]
theorem moduleSource_spec : Keeps g (moduleSource self) (Placed g) := by
  mvcgen [moduleSource]
  all_goals simp_all

@[spec]
theorem importEquals?_head_spec : Keeps g importEquals?.head (Placed g) := by
  mvcgen [importEquals?.head]
  all_goals simp_all

@[spec]
theorem importEquals?_spec {lo : Nat} (hlo : g.Misses lo) : Keeps g (importEquals? lo) (Placed g) := by
  mvcgen [importEquals?]
  all_goals simp_all

@[spec]
theorem importNames_spec : Keeps g importNames (Placed g) := by
  mvcgen [importNames]
  all_goals simp_all

@[spec]
theorem importClause_spec : Keeps g importClause (Placed g) := by
  mvcgen [importClause]
  all_goals simp_all

@[spec]
theorem importedNames_spec : Keeps g importedNames (Placed g) := by
  mvcgen [importedNames]
  all_goals simp_all

@[spec]
theorem importItem_finish_spec {lo : Nat} {typeOnly : Bool} {names : List Node} (hlo : g.Misses lo)
    (hnames : Placed g names) :
    Keeps g (importItem.finish self lo typeOnly names) (Placed g) := by
  mvcgen [importItem.finish]
  all_goals simp_all

@[spec]
theorem importItem_spec {lo : Nat} (hlo : g.Misses lo) : Keeps g (importItem self lo) (Placed g) := by
  mvcgen [importItem]
  all_goals simp_all

@[spec]
theorem exportSpecifier_plain_spec : Keeps g exportSpecifier.plain (Placed g) := by
  mvcgen [exportSpecifier.plain]
  all_goals simp_all

@[spec]
theorem exportSpecifier_spec : Keeps g exportSpecifier (Placed g) := by
  mvcgen [exportSpecifier]
  all_goals simp_all

@[spec]
theorem exportNames_spec {lo : Nat} (hlo : g.Misses lo) : Keeps g (exportNames self lo) (Placed g) := by
  mvcgen [exportNames]
  all_goals simp_all

@[spec]
theorem exportDefault_spec {lo : Nat} {marks : List Node} (hlo : g.Misses lo)
    (hmarks : Placed g marks) :
    Keeps g (exportDefault self lo marks) (Placed g) := by
  mvcgen [exportDefault, node_of_parts_spec, -node_spec]
  all_goals simp_all +zetaDelta [or_imp]

@[spec]
theorem exportItem_spec {lo : Nat} {marks : List Node} (hlo : g.Misses lo)
    (hmarks : Placed g marks) :
    Keeps g (exportItem self lo marks) (Placed g) := by
  mvcgen [exportItem]
  all_goals simp_all

@[spec]
theorem moduleItem_spec : Keeps g (moduleItem self) (Placed g) := by
  mvcgen [moduleItem]
  all_goals simp_all

theorem gives_of_placed {p : Parser Node} {goal : Goal} (hgoal : goal ≠ .pattern)
    (hp : Keeps g p (Placed g)) : Keeps g p (Gives g goal) :=
  keeps_iff.mpr fun c n after hc hrun =>
    have hn := keeps_iff.mp hp c n after hc hrun
    ⟨hn.1, hn.2, fun hpattern => absurd hpattern hgoal⟩

theorem construct_spec (depth : Nat) (goal : Goal) :
    Keeps g (construct depth goal) (Gives g goal) := by
  induction depth generalizing g goal with
  | zero => exact fail_spec
  | succ depth ih =>
      have hself : ReadsParts fun goal => construct depth goal := ⟨fun goal => ih goal⟩
      cases goal with
      | expression => exact gives_of_placed (by decide) sequenceExpression_spec
      | assignment => exact gives_of_placed (by decide) assignmentExpression_spec
      | unary => exact gives_of_placed (by decide) unaryExpression_spec
      | leftHandSide => exact gives_of_placed (by decide) (operand_spec true)
      | callee => exact gives_of_placed (by decide) (operand_spec false)
      | element => exact gives_of_placed (by decide) jsxElement_spec
      | pattern =>
          exact keeps_iff.mpr fun c n after hc hrun =>
            have hn := keeps_iff.mp bindingPattern_spec c n after hc hrun
            ⟨hn.1, hn.2.1, fun _ => hn.2.2⟩
      | type => exact gives_of_placed (by decide) anyType_spec
      | block => exact gives_of_placed (by decide) blockStatement_spec
      | statement isListed => exact gives_of_placed nofun (statement_spec isListed)
      | moduleItem => exact gives_of_placed (by decide) moduleItem_spec

instance (depth : Nat) : ReadsParts (construct depth) :=
  ⟨construct_spec depth⟩

/-- The items of a module; the module itself begins with its text. -/
theorem moduleBody_spec (depth : Nat) (hlo : g.Misses 0) :
    Keeps g (moduleBody depth) fun n => Placed g n ∧ n.kind = .module := by
  mvcgen [moduleBody]
  all_goals simp_all

/-- An empty gap at the start of a source. Readers come to places of the source only, and not into a line
end. -/
@[reducible]
def sourceGap (source : List Char) : Gap where
  Front x := x = 0
  next := 0
  Admits p := Place.Enters ⟨source, 0⟩ p
  Stops x := ∃ p, Place.Enters ⟨source, 0⟩ p ∧ p.offset = x
  next_le _ := Nat.zero_le _
  admits h hq := h.trans hq
  stops h := ⟨_, h, rfl⟩

omit g in
theorem enters_textStart (source : List Char) : Place.Enters ⟨source, 0⟩ (textStart source) := by
  unfold textStart
  split
  · next hmark =>
      obtain ⟨rest, rfl⟩ := List.head?_eq_some_iff.mp hmark
      exact .cons (rfl : byteOrderMark.utf8Size = 3) (.inl (by decide)) (.refl _)
  · exact .refl _

omit g in
theorem enters_skipInterpreterLine (p : Place) : p.Enters (skipInterpreterLine p) := by
  unfold skipInterpreterLine
  split
  · refine ⟨p.rest.takeWhile (!isLineTerminator ·), ⟨?_, rfl⟩, fun hreturn => ?_⟩
    · exact (List.prefix_iff_eq_append.mp (List.takeWhile_prefix _)).symm
    · exact absurd (List.mem_takeWhile_imp (List.mem_of_getLast? hreturn)) (by decide)
  · exact .refl _

omit g in
theorem enters_firstCursor (source : List Char) :
    Place.Enters ⟨source, 0⟩ (skipInterpreterLine (textStart source)) :=
  (enters_textStart source).trans (enters_skipInterpreterLine _)

/-- The reader at the first token of a source. -/
def firstCursor (jsx : Bool) (source : List Char) : Cursor :=
  let start := skipInterpreterLine (textStart source)
  { token := (nextToken true start).token
    start := (nextToken true start).start
    after := (nextToken true start).after
    previousEnd := start.offset
    size := Text.byteLength source
    flags :=
      { jsx := jsx, inAsync := false, inGenerator := false, withoutIn := false,
        colonAhead := false, withoutConditional := false, ambient := false } }

omit g in
theorem parseModule_eq_ok_iff {jsx : Bool} {source : List Char} {module : Node} :
    parseModule jsx source = .ok module ↔ ∃ c',
      moduleBody (16 * (Text.byteLength source + 4)) (firstCursor jsx source) = .ok (module, c') := by
  change (moduleBody (16 * (Text.byteLength source + 4)) (firstCursor jsx source) >>=
    fun r => Except.ok r.1) = .ok module ↔ _
  cases moduleBody (16 * (Text.byteLength source + 4)) (firstCursor jsx source) with
  | error e => simp [bind, Except.bind]
  | ok r => simp [bind, Except.bind, Prod.ext_iff]

omit g in
theorem behind_firstCursor (jsx : Bool) (source : List Char) :
    (firstCursor jsx source).Behind (sourceGap source) := by
  have hstart := enters_firstCursor source
  exact Cursor.behind_of_tokenAt (hstart.trans (enters_skipBlanks ..)) (head_skipBlanks _ _ _ _ rfl)
    ⟨_, hstart, rfl⟩ (le_skipBlanks ..) rfl rfl rfl rfl

omit g in
theorem reads_parseFile {path : String} {source : List Char} {module : Node}
    (h : parseFile path source = .ok module) :
    Placed (sourceGap source) module ∧ module.kind = .module := by
  obtain ⟨c', hrun⟩ := parseModule_eq_ok_iff.mp h
  exact (keeps_iff.mp (@moduleBody_spec (sourceGap source) _ (.inl rfl)) _ _ _
    (behind_firstCursor _ source) hrun).2

omit g in
theorem placed_parseFile {path : String} {source : List Char} {module : Node}
    (h : parseFile path source = .ok module) : module.IsPart ∧ module.kind = .module := by
  obtain ⟨hplaced, hkind⟩ := reads_parseFile h
  exact ⟨hplaced.1, hkind⟩

omit g in
theorem clear_parseFile {path : String} {source : List Char} {module : Node}
    (h : parseFile path source = .ok module) : module.Clear (sourceGap source) :=
  (reads_parseFile h).1.2

omit g in
theorem inPlace_parseFile {path : String} {source : List Char} {module : Node}
    (h : parseFile path source = .ok module) : module.InPlace :=
  (placed_parseFile h).1.inPlace

end Localization.Source.Parser
