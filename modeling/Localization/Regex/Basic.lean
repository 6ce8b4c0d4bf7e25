import Localization.Regex.CharSet

/-!
Regular expressions and the question whether one matches somewhere in a text. An expression is read as
a step from places between the characters of a text to places: from the places where a match can begin
it gives the places where it can end. Main definition: `Regex.matchesIn`.
-/

namespace Localization

/-- Conditions on a place in a text. -/
inductive Assertion where
  | textStart
  | textEnd
  | lineStart
  | lineEnd
  /-- Line ends of one carriage return, one line feed or both. -/
  | anyLineStart
  | anyLineEnd
  | wordBoundary
  | noWordBoundary
  | wordStart
  | wordEnd
  | wordStartHalf
  | wordEndHalf
  deriving DecidableEq, Repr

def isWordAt (word : CharSet) (c : Option Char) : Bool :=
  c.any word.contains

/-- Whether a condition holds between two characters; `none` stands for the end of the text. -/
def Assertion.holds (word : CharSet) (before after : Option Char) : Assertion → Bool
  | .textStart => before.isNone
  | .textEnd => after.isNone
  | .lineStart => before.isNone || before == some '\n'
  | .lineEnd => after.isNone || after == some '\n'
  | .anyLineStart =>
    before.isNone || before == some '\n' || (before == some '\r' && after != some '\n')
  | .anyLineEnd =>
    after.isNone || after == some '\r' || (after == some '\n' && before != some '\r')
  | .wordBoundary => isWordAt word before != isWordAt word after
  | .noWordBoundary => isWordAt word before == isWordAt word after
  | .wordStart => !isWordAt word before && isWordAt word after
  | .wordEnd => isWordAt word before && !isWordAt word after
  | .wordStartHalf => !isWordAt word before
  | .wordEndHalf => !isWordAt word after

inductive Regex where
  | empty
  /-- One character of a set. -/
  | one (s : CharSet)
  /-- A condition; the set says what word characters are. -/
  | assertion (a : Assertion) (word : CharSet)
  | seq (a b : Regex)
  | alt (a b : Regex)
  | star (r : Regex)
  deriving DecidableEq, Repr

namespace Regex

/-- For each place between the characters of a text, whether it is among those meant. -/
abbrev Places := List Bool

def everyPlace (text : List Char) : Places :=
  true :: text.map fun _ => true

/-- The places behind a character of the set whose front is among the given places. -/
def stepOver (s : CharSet) : List Char → Places → Places
  | c :: text, p :: places => (p && s.contains c) :: stepOver s text places
  | _, _ => []

/-- The given places at which a condition holds. -/
def keep (a : Assertion) (word : CharSet) (before : Option Char) : List Char → Places → Places
  | text, p :: places =>
    (p && a.holds word before text.head?) ::
      match text with
      | [] => []
      | c :: rest => keep a word (some c) rest places
  | _, [] => []

def join : Places → Places → Places
  | p :: ps, q :: qs => (p || q) :: join ps qs
  | [], qs => qs
  | ps, [] => ps

/-- Adds the places that a step reaches, `n` times or until no place is new. -/
def closure (step : Places → Places) : Nat → Places → Places
  | 0, places => places
  | n + 1, places =>
    let more := join places (step places)
    if more == places then places else closure step n more

/-- The places where a match can end that begins at one of the given places. -/
def advance (text : List Char) : Regex → Places → Places
  | empty, places => places
  | one s, places => false :: stepOver s text places
  | assertion a word, places => keep a word none text places
  | seq a b, places => b.advance text (a.advance text places)
  | alt a b, places => join (a.advance text places) (b.advance text places)
  | star r, places => closure (r.advance text) (text.length + 1) places

def matchesIn (r : Regex) (text : List Char) : Bool :=
  (r.advance text (everyPlace text)).any id

def times (r : Regex) : Nat → Regex
  | 0 => empty
  | n + 1 => seq r (r.times n)

def upTo (r : Regex) : Nat → Regex
  | 0 => empty
  | n + 1 => alt empty (seq r (r.upTo n))

end Regex

end Localization
