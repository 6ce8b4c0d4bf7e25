/-!
Sorting by a text. Texts are compared character by character in the order of the code points, which is
also the order of their UTF-8 bytes.
-/

namespace Localization.Text

variable {α : Type}

/-- Puts an item in front of the first one whose text does not come before its own. -/
def insertBy (text : α → String) (a : α) : List α → List α
  | [] => [a]
  | b :: rest =>
    if text b < text a then b :: insertBy text a rest else a :: b :: rest

/-- The items in the order of their texts; those with equal texts keep their relative order. -/
def sortBy (text : α → String) (items : List α) : List α :=
  items.foldr (insertBy text) []

/-- Puts a text into a sorted list that does not hold it yet. -/
def insertNew (s : String) : List String → List String
  | [] => [s]
  | t :: rest =>
    if t < s then t :: insertNew s rest
    else if t = s then t :: rest
    else s :: t :: rest

def sortedSet (texts : List String) : List String :=
  texts.foldr insertNew []

end Localization.Text
