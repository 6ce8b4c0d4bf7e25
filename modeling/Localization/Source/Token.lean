import Localization.Text.Bytes
import Localization.Source.Node

/-!
Tokens of a source module. A token is read from the text in front of the reader; what `/`, `<`, `>` and
a backtick begin depends on where they stand, so these are single-character tokens here and the grammar
reads the longer forms where they are meant.
-/

namespace Localization.Source

inductive Mark where
  | leftBrace | rightBrace | leftParen | rightParen | leftBracket | rightBracket
  | semicolon | comma | dot | ellipsis | question | questionDot | colon | arrow | at | hash
  | backtick | less | greater | slash
  | equal | equalEqual | equalEqualEqual | bang | bangEqual | bangEqualEqual
  | plus | minus | star | starStar | percent | plusPlus | minusMinus
  | ampersand | pipe | caret | tilde | andAnd | orOr | nullish
  | plusEqual | minusEqual | starEqual | starStarEqual | percentEqual
  | ampersandEqual | pipeEqual | caretEqual | andAndEqual | orOrEqual | nullishEqual
  deriving DecidableEq, Repr, Inhabited

inductive TokenKind where
  /-- A name or keyword; `escaped` when it was written with an escape. -/
  | name (text : String) (escaped : Bool)
  | privateName (text : String)
  | number
  | bigint
  /-- A string; without a value when it holds half of a surrogate pair. -/
  | string (value : Option String)
  | mark (m : Mark)
  | endOfText
  /-- Text that begins no token. -/
  | invalid
  deriving DecidableEq, Repr, Inhabited

/-- A token, the bytes it was read from, and whether a line ended in front of it. -/
structure Token where
  kind : TokenKind
  span : Span
  newlineBefore : Bool
  deriving DecidableEq, Repr, Inhabited

/-- A reader's place: the text that is left and the byte where it begins. -/
structure Place where
  rest : List Char
  offset : Nat
  deriving Repr, Inhabited

def Place.skip (p : Place) : Place :=
  match p.rest with
  | [] => p
  | c :: rest => ⟨rest, p.offset + c.utf8Size⟩

def Place.advance (p : Place) : Nat → Place
  | 0 => p
  | n + 1 => p.skip.advance n

def isLineTerminator (c : Char) : Bool :=
  c = '\n' || c = '\r' || c.toNat = 0x2028 || c.toNat = 0x2029

/-- White space of the language that does not end a line. -/
def isSpace (c : Char) : Bool :=
  let n := c.toNat
  n == 32 || n == 9 || n == 11 || n == 12 || n == 0xA0 || n == 0xFEFF || n == 0x1680 ||
    (0x2000 ≤ n && n ≤ 0x200A) || n == 0x202F || n == 0x205F || n == 0x3000

def isDigit (c : Char) : Bool :=
  48 ≤ c.toNat && c.toNat ≤ 57

/-- The longest mark at the start of a text, and its number of characters. -/
def markAt : List Char → Option (Mark × Nat)
  | '\x7b' :: _ => some (.leftBrace, 1)
  | '\x7d' :: _ => some (.rightBrace, 1)
  | '(' :: _ => some (.leftParen, 1)
  | ')' :: _ => some (.rightParen, 1)
  | '[' :: _ => some (.leftBracket, 1)
  | ']' :: _ => some (.rightBracket, 1)
  | ';' :: _ => some (.semicolon, 1)
  | ',' :: _ => some (.comma, 1)
  | '.' :: '.' :: '.' :: _ => some (.ellipsis, 3)
  | '.' :: _ => some (.dot, 1)
  | '?' :: '.' :: c :: _ => if isDigit c then some (.question, 1) else some (.questionDot, 2)
  | '?' :: '.' :: _ => some (.questionDot, 2)
  | '?' :: '?' :: '=' :: _ => some (.nullishEqual, 3)
  | '?' :: '?' :: _ => some (.nullish, 2)
  | '?' :: _ => some (.question, 1)
  | ':' :: _ => some (.colon, 1)
  | '=' :: '=' :: '=' :: _ => some (.equalEqualEqual, 3)
  | '=' :: '=' :: _ => some (.equalEqual, 2)
  | '=' :: '>' :: _ => some (.arrow, 2)
  | '=' :: _ => some (.equal, 1)
  | '!' :: '=' :: '=' :: _ => some (.bangEqualEqual, 3)
  | '!' :: '=' :: _ => some (.bangEqual, 2)
  | '!' :: _ => some (.bang, 1)
  | '+' :: '+' :: _ => some (.plusPlus, 2)
  | '+' :: '=' :: _ => some (.plusEqual, 2)
  | '+' :: _ => some (.plus, 1)
  | '-' :: '-' :: _ => some (.minusMinus, 2)
  | '-' :: '=' :: _ => some (.minusEqual, 2)
  | '-' :: _ => some (.minus, 1)
  | '*' :: '*' :: '=' :: _ => some (.starStarEqual, 3)
  | '*' :: '*' :: _ => some (.starStar, 2)
  | '*' :: '=' :: _ => some (.starEqual, 2)
  | '*' :: _ => some (.star, 1)
  | '%' :: '=' :: _ => some (.percentEqual, 2)
  | '%' :: _ => some (.percent, 1)
  | '&' :: '&' :: '=' :: _ => some (.andAndEqual, 3)
  | '&' :: '&' :: _ => some (.andAnd, 2)
  | '&' :: '=' :: _ => some (.ampersandEqual, 2)
  | '&' :: _ => some (.ampersand, 1)
  | '|' :: '|' :: '=' :: _ => some (.orOrEqual, 3)
  | '|' :: '|' :: _ => some (.orOr, 2)
  | '|' :: '=' :: _ => some (.pipeEqual, 2)
  | '|' :: _ => some (.pipe, 1)
  | '^' :: '=' :: _ => some (.caretEqual, 2)
  | '^' :: _ => some (.caret, 1)
  | '~' :: _ => some (.tilde, 1)
  | '@' :: _ => some (.at, 1)
  | '#' :: _ => some (.hash, 1)
  | '\x60' :: _ => some (.backtick, 1)
  | '<' :: _ => some (.less, 1)
  | '>' :: _ => some (.greater, 1)
  | '/' :: _ => some (.slash, 1)
  | _ => none

end Localization.Source
