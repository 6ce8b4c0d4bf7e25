import Localization.Text.Bytes

/-!
Edits of a source text. An edit replaces the bytes from `start` to `stop`; a list of edits is applied
in one pass from left to right, so that everything outside the edited ranges is copied as it is.
-/

namespace Localization

/-- Replaces the bytes from `start` up to `stop` by `text`. -/
structure Edit where
  start : Nat
  stop : Nat
  text : String
  deriving DecidableEq, Repr, Inhabited

namespace Edit

/-- An edit that replaces nothing. -/
def insert (at_ : Nat) (text : String) : Edit :=
  ⟨at_, at_, text⟩

def isInsertion (e : Edit) : Bool :=
  e.start == e.stop

/-- Edits are ordered by start, then by end. -/
def before (a b : Edit) : Bool :=
  a.start < b.start || (a.start == b.start && a.stop ≤ b.stop)

/-- Puts an edit in front of the first one that it does not come after. -/
def insertOrdered (e : Edit) : List Edit → List Edit
  | [] => [e]
  | f :: rest => if e.before f then e :: f :: rest else f :: insertOrdered e rest

/-- The edits in order; those with equal ranges keep their relative order. -/
def sort (edits : List Edit) : List Edit :=
  edits.foldr insertOrdered []

end Edit

/-- Why a list of edits cannot be applied. -/
inductive EditError where
  /-- An edit ends before it starts or reaches past the end of the source. -/
  | outside (start stop size : Nat)
  /-- An edit starts before the end of the one in front of it. -/
  | overlap (start stop previous : Nat)
  /-- An edit starts or ends inside a character. -/
  | splitsCharacter (start stop : Nat)
  deriving DecidableEq, Repr

def EditError.message : EditError → String
  | .outside start stop size =>
    "Edit range " ++ toString start ++ ".." ++ toString stop ++ " is outside the source (" ++
      toString size ++ " bytes)"
  | .overlap start stop previous =>
    "Overlapping edits at " ++ toString start ++ ".." ++ toString stop ++
      " (previous edit ends at " ++ toString previous ++ ")"
  | .splitsCharacter start stop =>
    "Edit range " ++ toString start ++ ".." ++ toString stop ++
      " does not fall on character boundaries"

namespace Edit

open Text (byteLength splitAtByte)

/-- Applies ordered edits to `rest`, the part of the source from byte `cursor` on; `size` is the length
of the whole source. -/
def applyFrom (size cursor : Nat) (rest : List Char) : List Edit → Except EditError (List Char)
  | [] => .ok rest
  | e :: edits =>
    if e.stop < e.start ∨ size < e.stop then .error (.outside e.start e.stop size)
    else if e.start < cursor then .error (.overlap e.start e.stop cursor)
    else
      match splitAtByte rest (e.start - cursor) with
      | none => .error (.splitsCharacter e.start e.stop)
      | some (kept, fromStart) =>
        match splitAtByte fromStart (e.stop - e.start) with
        | none => .error (.splitsCharacter e.start e.stop)
        | some (_, fromStop) => do
          let tail ← applyFrom size e.stop fromStop edits
          .ok (kept ++ e.text.toList ++ tail)

/-- Applies edits to a source. Insertions at one place keep the order of the list, and an insertion at
the start of a replaced range comes before the replacement. -/
def applyAll (source : List Char) (edits : List Edit) : Except EditError (List Char) :=
  applyFrom (byteLength source) 0 source (sort edits)

end Edit

end Localization
