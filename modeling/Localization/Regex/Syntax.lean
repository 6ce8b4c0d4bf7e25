import Localization.Regex.Basic
import Localization.Regex.Error

/-!
Regular expressions as they are written: the reader's result before flags are applied.
-/

namespace Localization.Regex

/-- Options that a pattern turns on or off. -/
inductive Flag where
  | ignoreCase
  | multiLine
  | dotMatchesNewline
  | swapGreed
  | unicode
  | crlf
  | ignoreWhitespace
  deriving DecidableEq, Repr

/-- Flags to be set or cleared, in order. -/
abbrev FlagChanges := List (Flag × Bool)

/-- A property of characters as it is named in a pattern. -/
inductive PropertyName where
  | name (text : String)
  | value (property text : String)
  deriving DecidableEq, Repr

inductive AsciiClass where
  | alnum | alpha | ascii | blank | cntrl | digit | graph | lower | print | punct | space | upper
  | word | xdigit
  deriving DecidableEq, Repr

structure Letter where
  char : Char
  /-- Whether it is written as a byte `\xHH`. -/
  isByte : Bool
  place : Range
  deriving DecidableEq, Repr, Inhabited

inductive SetSyntax where
  | range (lo hi : Letter)
  | ascii (name : AsciiClass) (negated : Bool)
  /-- `\d`, `\s` or `\w`. -/
  | named (s : NamedSet) (negated : Bool) (place : Range)
  | property (name : PropertyName) (negated : Bool) (place : Range)
  | none
  | union (a b : SetSyntax)
  | intersection (a b : SetSyntax)
  | difference (a b : SetSyntax)
  | symmetricDifference (a b : SetSyntax)
  | bracketed (negated : Bool) (inside : SetSyntax) (place : Range)
  deriving DecidableEq, Repr, Inhabited

inductive AssertionSyntax where
  /-- `^`. -/
  | lineStart
  /-- `$`. -/
  | lineEnd
  | fixed (a : Assertion)
  deriving DecidableEq, Repr

inductive Written where
  | empty
  | literal (c : Letter)
  | dot (place : Range)
  | assertion (a : AssertionSyntax)
  | set (s : SetSyntax)
  /-- Repeated at least `least` times and, if `most` is given, at most that often. -/
  | repetition (least : Nat) (most : Option Nat) (r : Written)
  | group (flags : FlagChanges) (r : Written)
  | flags (changes : FlagChanges)
  | seq (a b : Written)
  | alt (a b : Written)
  deriving Repr, Inhabited

end Localization.Regex
