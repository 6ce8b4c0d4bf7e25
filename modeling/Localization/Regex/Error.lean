/-!
Why a regular expression is refused, and how that is written: the pattern with the faulty part
underlined, and a sentence.
-/

namespace Localization.Regex

/-- A place in a pattern: its line and its column, both from one. -/
structure Position where
  line : Nat
  column : Nat
  deriving DecidableEq, Repr, Inhabited

structure Range where
  start : Position
  stop : Position
  deriving DecidableEq, Repr, Inhabited

/-- What is wrong with a pattern. -/
inductive Fault where
  | classEscapeInvalid
  | classRangeInvalid
  | classRangeLiteral
  | classUnclosed
  | decimalInvalid
  | escapeHexEmpty
  | escapeHexInvalid
  | escapeHexInvalidDigit
  | escapeUnexpectedEnd
  | escapeUnrecognized
  | flagDanglingNegation
  | flagDuplicate
  | flagRepeatedNegation
  | flagUnexpectedEnd
  | flagUnrecognized
  | groupNameDuplicate
  | groupNameEmpty
  | groupNameInvalid
  | groupNameUnexpectedEnd
  | groupUnclosed
  | groupUnopened
  | repetitionCountInvalid
  | repetitionCountEmpty
  | repetitionCountUnclosed
  | repetitionMissing
  | boundaryUnclosed
  | boundaryUnrecognized
  | boundaryUnexpectedEnd
  | propertyInvalid
  | propertyNotFound
  | propertyValueNotFound
  | backreference
  | lookAround
  | notUnicode
  | invalidText
  deriving DecidableEq, Repr

def Fault.message : Fault → String
  | .classEscapeInvalid => "invalid escape sequence found in character class"
  | .classRangeInvalid => "invalid character class range, the start must be <= the end"
  | .classRangeLiteral => "invalid range boundary, must be a literal"
  | .classUnclosed => "unclosed character class"
  | .decimalInvalid => "decimal literal invalid"
  | .escapeHexEmpty => "hexadecimal literal empty"
  | .escapeHexInvalid => "hexadecimal literal is not a Unicode scalar value"
  | .escapeHexInvalidDigit => "invalid hexadecimal digit"
  | .escapeUnexpectedEnd => "incomplete escape sequence, reached end of pattern prematurely"
  | .escapeUnrecognized => "unrecognized escape sequence"
  | .flagDanglingNegation => "dangling flag negation operator"
  | .flagDuplicate => "duplicate flag"
  | .flagRepeatedNegation => "flag negation operator repeated"
  | .flagUnexpectedEnd => "expected flag but got end of regex"
  | .flagUnrecognized => "unrecognized flag"
  | .groupNameDuplicate => "duplicate capture group name"
  | .groupNameEmpty => "empty capture group name"
  | .groupNameInvalid => "invalid capture group character"
  | .groupNameUnexpectedEnd => "unclosed capture group name"
  | .groupUnclosed => "unclosed group"
  | .groupUnopened => "unopened group"
  | .repetitionCountInvalid => "invalid repetition count range, the start must be <= the end"
  | .repetitionCountEmpty => "repetition quantifier expects a valid decimal"
  | .repetitionCountUnclosed => "unclosed counted repetition"
  | .repetitionMissing => "repetition operator missing expression"
  | .boundaryUnclosed =>
    "special word boundary assertion is either unclosed or contains an invalid character"
  | .boundaryUnrecognized =>
    "unrecognized special word boundary assertion, " ++
      "valid choices are: start, end, start-half or end-half"
  | .boundaryUnexpectedEnd =>
    "found either the beginning of a special word boundary or a bounded repetition on a \\b " ++
      "with an opening brace, but no closing brace"
  | .propertyInvalid => "invalid Unicode character class"
  | .propertyNotFound => "Unicode property not found"
  | .propertyValueNotFound => "Unicode property value not found"
  | .backreference => "backreferences are not supported"
  | .lookAround => "look-around, including look-ahead and look-behind, is not supported"
  | .notUnicode => "Unicode not allowed here"
  | .invalidText => "pattern can match invalid UTF-8"

/-- A fault with the parts of the pattern that it concerns; the second one is the place of an earlier
part that it repeats. -/
structure Refusal where
  fault : Fault
  at_ : Range
  earlier : Option Range
  deriving DecidableEq, Repr

def patternLines (line : List Char) : List Char → List (List Char)
  | [] => if line.isEmpty then [] else [line.reverse]
  | c :: rest => if c = '\n' then line.reverse :: patternLines [] rest else patternLines (c :: line) rest

/-- Whether one range begins before another, or begins with it and does not end behind it. -/
def Range.before (a b : Range) : Bool :=
  a.start.column < b.start.column ||
    (a.start.column == b.start.column && a.stop.column ≤ b.stop.column)

/-- Underlines ranges of one line from left to right; `column` is the next column to be written. -/
def underline (column : Nat) : List Range → List Char
  | [] => []
  | r :: rest =>
    let blanks := r.start.column - column
    let width := max 1 (r.stop.column - r.start.column)
    List.replicate blanks ' ' ++ List.replicate width '^' ++
      underline (column + blanks + width) rest

/-- The ranges of a refusal that lie on one line each, in order. -/
def Refusal.onLine (e : Refusal) (line : Nat) : List Range :=
  let chosen := (e.at_ :: e.earlier.toList).filter fun r =>
    r.start.line == line && r.stop.line == line
  match chosen with
  | [a, b] => if a.before b then [a, b] else [b, a]
  | other => other

/-- The lines of a pattern with the underlined parts below them. -/
def Refusal.notes (e : Refusal) (numbered : Bool) (width : Nat) : Nat → List (List Char) → List Char
  | _, [] => []
  | line, text :: rest =>
    let number := (toString line).toList
    let front :=
      if numbered then List.replicate (width - number.length) ' ' ++ number ++ [':', ' ']
      else List.replicate 4 ' '
    let marks := e.onLine line
    let below :=
      if marks.isEmpty then []
      else List.replicate (if numbered then width + 2 else 4) ' ' ++ underline 1 marks ++ ['\n']
    front ++ text ++ ['\n'] ++ below ++ e.notes numbered width (line + 1) rest

/-- The note for a range that reaches over several lines. -/
def Range.note (r : Range) : String :=
  "on line " ++ toString r.start.line ++ " (column " ++ toString r.start.column ++
    ") through line " ++ toString r.stop.line ++ " (column " ++ toString (r.stop.column - 1) ++ ")"

def Refusal.message (e : Refusal) (pattern : String) : String :=
  let lines := patternLines [] pattern.toList
  let count :=
    lines.length + (if pattern.toList.getLast? == some '\n' then 1 else 0)
  let numbered := 1 < count
  let body := String.ofList (e.notes numbered (toString count).length 1 lines)
  let sentence := "error: " ++ e.fault.message
  if pattern.toList.contains '\n' then
    let divider := String.ofList (List.replicate 79 '~') ++ "\n"
    let long := (e.at_ :: e.earlier.toList).filter fun r => r.start.line != r.stop.line
    let notes := long.foldl (fun text r => text ++ r.note ++ "\n") ""
    "regex parse error:\n" ++ divider ++ body ++ divider ++ notes ++ sentence
  else "regex parse error:\n" ++ body ++ sentence

end Localization.Regex
