import Localization.Key.Occurrence
import Localization.Text.Order

/-!
Sets of keys: of all occurrences of a key the first one counts, the others are only kept to be
reported.
-/

namespace Localization

/-- The first occurrences of keys, and all later ones of the same keys. -/
structure KeySet where
  unique : List Occurrence
  repeats : List Occurrence
  deriving DecidableEq, Repr, Inhabited

namespace KeySet

def empty : KeySet :=
  ⟨[], []⟩

def contains (s : KeySet) (key : String) : Bool :=
  s.unique.any fun o => o.key == key

def add (s : KeySet) (o : Occurrence) : KeySet :=
  if s.contains o.key then { s with repeats := s.repeats ++ [o] }
  else { s with unique := s.unique ++ [o] }

def ofOccurrences (occurrences : List Occurrence) : KeySet :=
  occurrences.foldl add empty

def size (s : KeySet) : Nat :=
  s.unique.length

def isEmpty (s : KeySet) : Bool :=
  s.unique.isEmpty

/-- The first occurrences as they are written: sorted by key, or as they were found. -/
def ordered (s : KeySet) (sorted : Bool) : List Occurrence :=
  if sorted then Text.sortBy Occurrence.key s.unique else s.unique

end KeySet

namespace Occurrence

/-- The text of a key that nobody has translated yet. -/
def initialText (o : Occurrence) : String :=
  o.default.getD o.key

end Occurrence

end Localization
