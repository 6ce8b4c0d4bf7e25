import Localization.Text.Bytes

/-!
Lines of a source text: the line ending in use, the indentation of a line, and whether two offsets
lie on one line. Only the line feed ends a line here.
-/

namespace Localization.Text

/-- The characters of the line that is open at the end of the text. -/
def lastLine (cs : List Char) : List Char :=
  cs.foldl (fun line c => if c = '\n' then [] else c :: line) [] |>.reverse

/-- The blanks and tabs at the start of the line that holds byte `offset`. -/
def lineIndent (source : List Char) (offset : Nat) : List Char :=
  (lastLine (takeBytes source offset) ++ dropBytes source offset).takeWhile
    fun c => c = ' ' || c = '\t'

/-- The line ending that the first line feed of a text belongs to; a text without one uses a bare
line feed. -/
def lineEnding : List Char → String
  | '\r' :: '\n' :: _ => "\r\n"
  | '\n' :: _ => "\n"
  | _ :: rest => lineEnding rest
  | [] => "\n"

theorem lineEnding_eq (source : List Char) :
    lineEnding source = "\n" ∨ lineEnding source = "\r\n" := by
  fun_induction lineEnding source with
  | case1 => exact .inr rfl
  | case2 => exact .inl rfl
  | case3 c rest _ _ ih => exact ih
  | case4 => exact .inl rfl

def sameLine (source : List Char) (a b : Nat) : Bool :=
  !(sliceBytes source (min a b) (max a b)).contains '\n'

/-- A count with its noun, in the form that fits the count: `1 file`, `2 files`. -/
def counted (count : Nat) (singular plural : String) : String :=
  toString count ++ " " ++ (if count = 1 then singular else plural)

end Localization.Text
