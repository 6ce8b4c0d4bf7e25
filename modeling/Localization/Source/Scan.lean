import Localization.Text.Quoted
import Localization.Text.Identifier
import Localization.Source.Token

/-!
Reading tokens from the text: blanks and comments, names, numbers, strings, and the pieces of
templates, regular expressions and elements that the grammar asks for by itself.
-/

namespace Localization.Source

open Text (isIdentifierStart isIdentifierPart)
open Text.Quoted (hexValue?)

/-- Where a reader of blanks and comments is. -/
inductive Blanks where
  | outside
  | lineComment
  /-- Behind the slash that opens a block comment. -/
  | blockOpening
  | blockComment
  /-- Behind a star in a block comment. -/
  | blockStar
  deriving DecidableEq, Repr

/-- What follows blanks and comments, and whether a line ended in them. -/
structure AfterBlanks where
  place : Place
  newline : Bool
  deriving Repr, Inhabited

/-- Skips blanks and comments. A comment that is not closed ends with the text. -/
def skipBlanks (at_ : Blanks) (newline : Bool) : List Char → Nat → AfterBlanks
  | [], offset => ⟨⟨[], offset⟩, newline⟩
  | c :: rest, offset =>
    let next := offset + c.utf8Size
    match at_ with
    | .lineComment =>
      if isLineTerminator c then skipBlanks .outside true rest next
      else skipBlanks .lineComment newline rest next
    | .blockOpening => skipBlanks .blockComment newline rest next
    | .blockComment =>
      if c = '*' then skipBlanks .blockStar newline rest next
      else skipBlanks .blockComment (newline || isLineTerminator c) rest next
    | .blockStar =>
      if c = '/' then skipBlanks .outside newline rest next
      else if c = '*' then skipBlanks .blockStar newline rest next
      else skipBlanks .blockComment (newline || isLineTerminator c) rest next
    | .outside =>
      if isLineTerminator c then skipBlanks .outside true rest next
      else if isSpace c then skipBlanks .outside newline rest next
      else if c = '/' ∧ rest.head? = some '/' then skipBlanks .lineComment newline rest next
      else if c = '/' ∧ rest.head? = some '*' then skipBlanks .blockOpening newline rest next
      -- The marks `<!--` and, at the start of a line, `-->` open comments that end with their lines.
      else if c = '<' ∧ rest.take 3 = ['!', '-', '-'] then
        skipBlanks .lineComment newline rest next
      else if c = '-' ∧ newline ∧ rest.take 2 = ['-', '>'] then
        skipBlanks .lineComment newline rest next
      else ⟨⟨c :: rest, offset⟩, newline⟩

/-! ## Escapes -/

def octalValue? (c : Char) : Option Nat :=
  if 48 ≤ c.toNat && c.toNat ≤ 55 then some (c.toNat - 48) else none

/-- The character that a one-letter escape stands for; other characters stand for themselves. -/
def simpleEscape (c : Char) : Nat :=
  if c = 'n' then 10 else if c = 't' then 9 else if c = 'r' then 13 else if c = 'b' then 8
  else if c = 'v' then 11 else if c = 'f' then 12 else c.toNat

/-- The number that hexadecimal digits write, if all of them are digits. -/
def hexNumber? (digits : List Char) : Option Nat :=
  digits.foldl (fun n c => do some (16 * (← n) + (← hexValue? c))) (some 0)

/-- The code point of an octal escape and its number of digits: at most three, and at most 255. -/
def octalEscape (digits : List Char) : Nat × Nat :=
  match (digits.take 3).takeWhile (fun c => (octalValue? c).isSome) |>.filterMap octalValue? with
  | [a] => (a, 1)
  | [a, b] => (8 * a + b, 2)
  | [a, b, c] => if a ≤ 3 then (64 * a + 8 * b + c, 3) else (8 * a + b, 2)
  | _ => (0, 0)

/-- Reads an escape behind its backslash: the code points it stands for and its number of characters;
`none` for a malformed escape. A line end behind a backslash stands for nothing. -/
def escapeAt : List Char → Option (List Nat × Nat)
  | [] => none
  | '\r' :: '\n' :: _ => some ([], 2)
  | 'u' :: '\x7b' :: rest =>
    let digits := rest.takeWhile (· != '\x7d')
    match hexNumber? digits with
    | some n =>
      if digits.isEmpty || 0x10FFFF < n || digits.length == rest.length then none
      else some ([n], digits.length + 3)
    | none => none
  | 'u' :: rest =>
    if (rest.take 4).length = 4 then (hexNumber? (rest.take 4)).map fun n => ([n], 5) else none
  | 'x' :: rest =>
    if (rest.take 2).length = 2 then (hexNumber? (rest.take 2)).map fun n => ([n], 3) else none
  | e :: rest =>
    if isLineTerminator e then some ([], 1)
    else if (octalValue? e).isSome then
      let (n, length) := octalEscape (e :: rest)
      some ([n], length)
    else some ([simpleEscape e], 1)

/-! ## Names -/

structure ScannedName where
  text : String
  escaped : Bool
  after : Place
  deriving Repr, Inhabited

/-- Reads the rest of a name; `more` accepts a further character. The first `skip` characters belong to
an escape that has been read. -/
def scanNameFrom (more : Char → Bool) (seen : List Char) (escaped : Bool) (skip : Nat) :
    List Char → Nat → Option ScannedName
  | [], offset => some ⟨String.ofList seen.reverse, escaped, ⟨[], offset⟩⟩
  | c :: rest, offset =>
    match skip with
    | k + 1 => scanNameFrom more seen escaped k rest (offset + c.utf8Size)
    | 0 =>
      if c = '\\' then
        match rest.head? == some 'u', escapeAt rest with
        | true, some (codes, length) =>
          scanNameFrom more (codes.map Char.ofNat ++ seen) true length rest (offset + 1)
        | _, _ => none
      else if more c then scanNameFrom more (c :: seen) escaped 0 rest (offset + c.utf8Size)
      else some ⟨String.ofList seen.reverse, escaped, ⟨c :: rest, offset⟩⟩

def scanName (p : Place) : Option ScannedName :=
  match p.rest with
  | [] => none
  | c :: _ =>
    if isIdentifierStart c || c = '\\' then
      scanNameFrom isIdentifierPart [] false 0 p.rest p.offset
    else none

/-- Reads a name in a tag, where a hyphen is a part of names. -/
def scanTagName (p : Place) : Option ScannedName :=
  match p.rest with
  | [] => none
  | c :: _ =>
    if isIdentifierStart c then
      scanNameFrom (fun c => isIdentifierPart c || c = '-') [] false 0 p.rest p.offset
    else none

/-! ## Numbers -/

/-- Drops the leading characters that satisfy a test, all of them one byte long. -/
def dropDigits (test : Char → Bool) (p : Place) : Place :=
  let run := p.rest.takeWhile test
  ⟨p.rest.drop run.length, p.offset + run.length⟩

def isDigitOrGap (c : Char) : Bool :=
  isDigit c || c = '_'

/-- The digits behind a base such as `0x`, of which at least one is needed. -/
def scanBased (test : Char → Bool) (p : Place) : Option Place :=
  let after := dropDigits (fun c => test c || c = '_') p
  if (p.rest.takeWhile fun c => test c || c = '_').any test then some after else none

/-- An exponent, if one is there; `none` when its digits are missing. -/
def scanExponent (p : Place) : Option (Bool × Place) :=
  match p.rest with
  | e :: rest =>
    if e = 'e' ∨ e = 'E' then
      let digits : Place :=
        match rest with
        | sign :: rest' =>
          if sign = '+' ∨ sign = '-' then ⟨rest', p.offset + 2⟩ else ⟨rest, p.offset + 1⟩
        | [] => ⟨[], p.offset + 1⟩
      if digits.rest.head?.any isDigit then some (true, dropDigits isDigitOrGap digits) else none
    else some (false, p)
  | [] => some (false, p)

/-- Reads a number that begins with a digit, or with a point in front of a digit. -/
def scanNumber (p : Place) : Option (TokenKind × Place) := do
  let (kind, after) ← scanBody
  match after.rest with
  | c :: _ => if isIdentifierStart c || isDigit c && kind == .bigint then none else some (kind, after)
  | [] => some (kind, after)
where
  /-- An `n` behind an integer makes it a big integer. -/
  integer (p : Place) : TokenKind × Place :=
    match p.rest with
    | 'n' :: rest => (.bigint, ⟨rest, p.offset + 1⟩)
    | _ => (.number, p)
  scanBody : Option (TokenKind × Place) :=
    match p.rest with
    | '0' :: 'x' :: _ | '0' :: 'X' :: _ =>
      (scanBased (fun c => (hexValue? c).isSome) (p.advance 2)).map integer
    | '0' :: 'o' :: _ | '0' :: 'O' :: _ =>
      (scanBased (fun c => 48 ≤ c.toNat && c.toNat ≤ 55) (p.advance 2)).map integer
    | '0' :: 'b' :: _ | '0' :: 'B' :: _ =>
      (scanBased (fun c => c = '0' || c = '1') (p.advance 2)).map integer
    | _ => do
      let digits := p.rest.takeWhile isDigitOrGap
      let whole := dropDigits isDigitOrGap p
      -- Octal digits behind a zero have neither fraction nor exponent; other digits behind one may have
      -- both, but are no big integer.
      let padded := digits.head? == some '0' && 1 < digits.length
      if padded && digits.all (fun c => (octalValue? c).isSome || c = '_') then
        return (.number, whole)
      let fraction : Bool × Place :=
        match whole.rest with
        | '.' :: rest => (true, dropDigits isDigitOrGap ⟨rest, whole.offset + 1⟩)
        | _ => (false, whole)
      let (exponent, after) ← scanExponent fraction.2
      if fraction.1 || exponent || padded then some (.number, after) else some (integer after)

/-! ## Strings -/

/-- Joins the halves of surrogate pairs; a half that stands alone leaves the string without a value. -/
def joinSurrogates : List Nat → Option (List Char)
  | [] => some []
  | n :: rest =>
    if 0xD800 ≤ n ∧ n ≤ 0xDBFF then
      match rest with
      | m :: rest' =>
        if 0xDC00 ≤ m ∧ m ≤ 0xDFFF then
          (joinSurrogates rest').map (Char.ofNat (0x10000 + (n - 0xD800) * 0x400 + (m - 0xDC00)) :: ·)
        else none
      | [] => none
    else if 0xDC00 ≤ n ∧ n ≤ 0xDFFF then none
    else (joinSurrogates rest).map (Char.ofNat n :: ·)

/-- The value of a string from its code points, last first. -/
def stringValue (codes : List Nat) : Option String :=
  (joinSurrogates codes.reverse).map String.ofList

/-- Reads a string behind its opening quote: the code points, last first, and the place behind the
closing quote. A string that reaches the end of its line or of the text ends there. The first `skip`
characters belong to an escape that has been read. -/
def scanString (quote : Char) (codes : List Nat) (skip : Nat) :
    List Char → Nat → Option (List Nat × Place)
  | [], offset => some (codes, ⟨[], offset⟩)
  | c :: rest, offset =>
    match skip with
    | k + 1 => scanString quote codes k rest (offset + c.utf8Size)
    | 0 =>
      if c = quote then some (codes, ⟨rest, offset + 1⟩)
      else if c = '\n' ∨ c = '\r' then some (codes, ⟨c :: rest, offset⟩)
      else if c = '\\' then
        match escapeAt rest with
        | some (read, length) => scanString quote (read ++ codes) length rest (offset + 1)
        | none => none
      else scanString quote (c.toNat :: codes) 0 rest (offset + c.utf8Size)

/-! ## Templates and regular expressions -/

inductive TemplateEnd where
  | backtick
  | substitution
  deriving DecidableEq, Repr

/-- Reads template text up to a backtick or an opened substitution: its characters, last first. -/
def scanTemplate (seen : List Char) (escaped : Bool) :
    List Char → Nat → Option (List Char × TemplateEnd × Place)
  | [], _ => none
  | c :: rest, offset =>
    if escaped then scanTemplate (c :: seen) false rest (offset + c.utf8Size)
    else if c = '\x60' then some (seen, .backtick, ⟨rest, offset + 1⟩)
    else if c = '$' ∧ rest.head? = some '\x7b' then
      some (seen, .substitution, ⟨rest.tail, offset + 2⟩)
    else scanTemplate (c :: seen) (c = '\\') rest (offset + c.utf8Size)

/-- Whether every escape in a piece of template text is well formed; octal escapes are not. -/
def validEscapes : List Char → Bool
  | [] => true
  | c :: rest =>
    if c = '\\' then
      match rest with
      | [] => false
      | e :: rest' =>
        (if isDigit e then e = '0' && !(rest'.head?.any isDigit) else (escapeAt rest).isSome) &&
          validEscapes rest'
    else validEscapes rest

def scanRegularExpression (inClass escaped : Bool) : List Char → Nat → Option Place
  | [], _ => none
  | c :: rest, offset =>
    if isLineTerminator c then none
    else if escaped then scanRegularExpression inClass false rest (offset + c.utf8Size)
    else if c = '\\' then scanRegularExpression inClass true rest (offset + 1)
    else if c = '[' then scanRegularExpression true false rest (offset + 1)
    else if c = ']' then scanRegularExpression false false rest (offset + 1)
    else if c = '/' ∧ !inClass then
      -- A name behind the closing slash gives the flags.
      some ((scanNameFrom isIdentifierPart [] false 0 rest (offset + 1)).map
        (fun n : ScannedName => n.after) |>.getD ⟨rest, offset + 1⟩)
    else scanRegularExpression inClass false rest (offset + c.utf8Size)

/-! ## Element text -/

/-- Reads the text of an element up to a brace or a tag; the text may not end inside an element. -/
def scanElementText (seen : List Char) : List Char → Nat → Option (List Char × Place)
  | [], _ => none
  | c :: rest, offset =>
    if c = '\x7b' ∨ c = '<' then some (seen.reverse, ⟨c :: rest, offset⟩)
    else scanElementText (c :: seen) rest (offset + c.utf8Size)

def scanAttributeString (quote : Char) (seen : List Char) :
    List Char → Nat → Option (List Char × Place)
  | [], _ => none
  | c :: rest, offset =>
    if c = quote then some (seen.reverse, ⟨rest, offset + 1⟩)
    else scanAttributeString quote (c :: seen) rest (offset + c.utf8Size)

/-! ## Tokens -/

/-- A token with the text from its first character on and the place behind it. -/
structure Scanned where
  token : Token
  start : List Char
  after : Place
  deriving Repr, Inhabited

def tokenAt (p : Place) : TokenKind × Place :=
  match p.rest with
  | [] => (.endOfText, p)
  | c :: rest =>
    if c = '\x22' ∨ c = '\x27' then
      match scanString c [] 0 rest (p.offset + 1) with
      | some (codes, after) => (.string (stringValue codes), after)
      | none => (.invalid, p)
    else if isDigit c ∨ (c = '.' ∧ rest.head?.any isDigit) then
      (scanNumber p).getD (.invalid, p)
    else
      match scanName p with
      | some name => (.name name.text name.escaped, name.after)
      | none =>
        if c = '#' then
          match scanName p.skip with
          | some name => (.privateName name.text, name.after)
          | none => (.mark .hash, p.skip)
        else
          match markAt p.rest with
          | some (m, n) => (.mark m, p.advance n)
          | none => (.invalid, p)

/-- Reads the next token; `lineStart` says that it may be the first one of its line. -/
def nextToken (lineStart : Bool) (p : Place) : Scanned :=
  let blanks := skipBlanks .outside lineStart p.rest p.offset
  let (kind, after) := tokenAt blanks.place
  { token := ⟨kind, ⟨blanks.place.offset, after.offset⟩, blanks.newline⟩
    start := blanks.place.rest
    after := after }

end Localization.Source
