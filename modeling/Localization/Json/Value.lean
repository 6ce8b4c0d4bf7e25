import Localization.Decimal.Shortest
import Localization.OrderedMap
import Localization.Text.Quoted

/-!
JSON values and their written form: members keep their order, and each level of nesting is indented by
two blanks.
-/

namespace Localization

inductive JsonNumber where
  | natural (n : Nat)
  /-- The number `-n`. -/
  | negative (n : Nat)
  | float (isNegative : Bool) (x : Binary64)
  deriving DecidableEq, Repr, Inhabited

inductive Json where
  | null
  | bool (b : Bool)
  | number (n : JsonNumber)
  | string (s : String)
  | array (items : List Json)
  /-- Each name stands once. -/
  | object (members : List (String × Json))
  deriving Repr, Inhabited

/-- Numbers from 0.00001 up to sixteen digits are written without an exponent. -/
def JsonNumber.floatFormat : Decimal.Format :=
  ⟨-4, 16⟩

def JsonNumber.render : JsonNumber → String
  | natural n => toString n
  | negative n => "-" ++ toString n
  | float isNegative x => (if isNegative then "-" else "") ++ Decimal.text floatFormat x

namespace Json

/-- A line end and the indentation of a level. -/
def newline (level : Nat) : List Char :=
  '\n' :: List.replicate (2 * level) ' '

mutual

/-- The written form of a value at a level of nesting. -/
def renderAt (level : Nat) : Json → List Char
  | null => ['n', 'u', 'l', 'l']
  | bool true => ['t', 'r', 'u', 'e']
  | bool false => ['f', 'a', 'l', 's', 'e']
  | number n => n.render.toList
  | string s => (Text.Quoted.encode s).toList
  | array [] => ['[', ']']
  | array (item :: rest) =>
    '[' :: newline (level + 1) ++ renderAt (level + 1) item ++ renderItems (level + 1) rest ++
      newline level ++ [']']
  | object [] => ['\x7b', '\x7d']
  | object (m :: rest) =>
    '\x7b' :: newline (level + 1) ++ (Text.Quoted.encode m.1).toList ++ [':', ' '] ++
      renderAt (level + 1) m.2 ++ renderMembers (level + 1) rest ++ newline level ++ ['\x7d']

/-- The items behind the first one. -/
def renderItems (level : Nat) : List Json → List Char
  | [] => []
  | item :: rest => ',' :: newline level ++ renderAt level item ++ renderItems level rest

def renderMembers (level : Nat) : List (String × Json) → List Char
  | [] => []
  | (name, value) :: rest =>
    ',' :: newline level ++ (Text.Quoted.encode name).toList ++ [':', ' '] ++
      renderAt level value ++ renderMembers level rest

end

def render (j : Json) : String :=
  String.ofList (j.renderAt 0)

end Json

end Localization
