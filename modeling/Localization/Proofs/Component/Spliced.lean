import Localization.Proofs.Component.Emitted
import Localization.Proofs.Component.WrappedTree
import Localization.Text.Identifier

/-!
The output of a wrapping as a text. It is the source with the recorded literals replaced by calls and
with the hooks and the import put in; whatever stands between is kept. A call that is written directly
behind a name becomes a part of the name, so the output need not read as is meant.
-/

namespace Localization

open Source (Node)

def beginsName (cs : List Char) : Bool :=
  cs.head?.any Text.isIdentifierPart

def endsName (cs : List Char) : Bool :=
  cs.getLast?.any Text.isIdentifierPart

theorem beginsName_append {text : String} (more : String) (h : text.toList ≠ []) :
    beginsName (text ++ more).toList = beginsName text.toList := by
  rw [String.toList_append]
  cases hcs : text.toList with
  | nil => contradiction
  | cons c rest => rfl

theorem endsName_append (text : String) {more : String} (h : more.toList ≠ []) :
    endsName (text ++ more).toList = endsName more.toList := by
  rw [String.toList_append, endsName, endsName, List.getLast?_append,
    List.getLast?_eq_some_getLast h, Option.some_or]

/-- The edit of a piece runs together with a name in front of it, or with one in the text behind it. -/
def Piece.Fuses (p : Piece) (behind : List Char) : Prop :=
  (endsName p.kept = true ∧ beginsName p.edit.text.toList = true) ∨
    (endsName p.edit.text.toList = true ∧ beginsName behind = true)

/-- A call begins like a name where nothing is written around it. -/
theorem beginsName_wrap (site : LiteralSite) (key : String) :
    beginsName (site.wrap (lookupCall key)).toList = true ↔ site = .expression := by
  cases site <;> simp [LiteralSite.wrap, lookupCall, lookupName, beginsName] <;> decide

theorem endsName_wrap (site : LiteralSite) (key : String) :
    endsName (site.wrap (lookupCall key)).toList = false := by
  cases site with
  | expression => exact endsName_append _ (by decide)
  | «attribute» => exact endsName_append _ (by decide)
  | propertyKey => exact endsName_append _ (by decide)
  | elementText => exact endsName_append _ (by decide)

theorem endsName_hookStatement (space : Option String) :
    endsName (hookStatement space).toList = false :=
  endsName_append _ (by decide)

theorem hookStatement_ne_nil (space : Option String) : (hookStatement space).toList ≠ [] := by
  simp [hookStatement]

/-- A hook in a block begins with white space and ends with white space or a semicolon. -/
theorem apart_statementInBlock (source : List Char) (space : Option String) (block : Node) :
    beginsName (Candidate.statementInBlock source (hookStatement space) block).toList = false ∧
      endsName (Candidate.statementInBlock source (hookStatement space) block).toList = false := by
  have hends (blanks : String) : endsName (blanks ++ hookStatement space).toList = false := by
    rw [endsName_append _ (hookStatement_ne_nil space)]
    exact endsName_hookStatement space
  simp only [Candidate.statementInBlock]
  split
  · refine ⟨?_, endsName_append _ (by decide)⟩
    rw [String.append_assoc, beginsName_append _ (by decide)]
    decide
  · split
    · refine ⟨?_, hends _⟩
      rw [beginsName_append _ (by decide)]
      decide
    · refine ⟨?_, hends _⟩
      rw [String.append_assoc]
      rcases Text.lineEnding_eq source with hfeed | hfeed
      · rw [hfeed, beginsName_append _ (by decide)]
        decide
      · rw [hfeed, beginsName_append _ (by decide)]
        decide

/-- A hook stands apart from what is in front of it and behind it. -/
theorem IsHookEdit.apart {source : List Char} {space : Option String} {e : Edit}
    (h : IsHookEdit source space e) :
    beginsName e.text.toList = false ∧ endsName e.text.toList = false := by
  obtain ⟨place, text, rfl, ⟨block, rfl⟩ | rfl | rfl⟩ := h.exists_insert
  · exact apart_statementInBlock source space block
  · refine ⟨?_, endsName_append _ (by decide)⟩
    rw [Edit.insert, String.append_assoc, beginsName_append _ (by decide)]
    decide
  · simp only [Edit.insert]
    decide

/-- A component that returns a text, with no space in front of it. -/
def returnedText : List Char :=
  "function A() \x7b return\"안녕\"; \x7d\n".toList

def fusedReturn : List Char :=
  ("import \x7b useTranslation \x7d from \"i18nexus\";\n" ++
    "function A() \x7b const \x7b t \x7d = useTranslation(); " ++
    "returnt(\"안녕\"); \x7d\n").toList

end Localization
