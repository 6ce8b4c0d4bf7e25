import Localization.Regex.Syntax

/-!
Reading regular expressions. Main definition: `Regex.parse?`.
-/

namespace Localization.Regex

/-! ## The reader's state -/

/-- The text that is left, where it begins, and what has been seen. -/
structure Reader where
  rest : List Char
  position : Position
  /-- White space and comments are skipped. -/
  loose : Bool
  /-- Names of groups and their places. -/
  names : List (String × Range)
  deriving Inhabited

/-- Reading from a pattern. -/
abbrev Reading := StateT Reader (Except Refusal)

namespace Reading

def refuse {α : Type} (fault : Fault) (place : Range) : Reading α := fun _ =>
  .error ⟨fault, place, none⟩

def char? : Reading (Option Char) := do return (← get).rest.head?

def atEnd : Reading Bool := do return (← get).rest.isEmpty

def position : Reading Position := do return (← get).position

/-- The empty range in front of the reader. -/
def here : Reading Range := do return ⟨← position, ← position⟩

def after (p : Position) (c : Char) : Position :=
  if c = '\n' then ⟨p.line + 1, 1⟩ else ⟨p.line, p.column + 1⟩

def hereChar : Reading Range := do
  let p ← position
  match ← char? with
  | some c => return ⟨p, after p c⟩
  | none => return ⟨p, p⟩

/-- The range from a position up to the reader. -/
def since (start : Position) : Reading Range := do return ⟨start, ← position⟩

def bump : Reading Unit := modify fun r =>
  match r.rest with
  | [] => r
  | c :: rest => { r with rest := rest, position := after r.position c }

/-- Passes a text if it stands here. -/
def takeText (text : List Char) : Reading Bool := do
  if (← get).rest.take text.length = text then
    text.forM fun _ => bump
    return true
  else return false

/-- Skips white space and comments where they do not matter. -/
def skipLoose : Reading Unit := do
  let r ← get
  if r.loose then set (skip r.rest.length false r)
where
  skip : Nat → Bool → Reader → Reader
    | 0, _, r => r
    | n + 1, inComment, r =>
      match r.rest with
      | [] => r
      | c :: rest =>
        let next := { r with rest := rest, position := after r.position c }
        if inComment then skip n (c != '\n') next
        else if c = '#' then skip n true next
        else if Text.isBlank c then skip n false next
        else r

/-- Passes a character and the white space behind it. -/
def bumpLoose : Reading Unit := do
  bump
  skipLoose

/-- Passes characters that satisfy a test, skipping loose white space between them, and gives them. -/
def takeWhile (test : Char → Bool) : Reading (List Char) := fun r => loop r.rest.length r
where
  loop : Nat → Reading (List Char)
    | 0 => return []
    | n + 1 => do
      match ← char? with
      | some c =>
        if test c then
          bumpLoose
          let rest ← loop n
          return c :: rest
        else return []
      | none => return []

/-! ## Escapes -/

def isHexDigit (c : Char) : Bool :=
  (48 ≤ c.toNat && c.toNat ≤ 57) || (97 ≤ c.toNat && c.toNat ≤ 102) ||
    (65 ≤ c.toNat && c.toNat ≤ 70)

def digitValue (c : Char) : Nat :=
  if c.toNat ≤ 57 then c.toNat - 48 else if 97 ≤ c.toNat then c.toNat - 87 else c.toNat - 55

def number (base : Nat) (digits : List Char) : Nat :=
  digits.foldl (fun n c => base * n + digitValue c) 0

def scalar? (n : Nat) : Option Char :=
  if n ≤ 0x10FFFF ∧ ¬ (0xD800 ≤ n ∧ n ≤ 0xDFFF) then some (Char.ofNat n) else none

/-- The hexadecimal digits of an escape with a fixed number of them. -/
def hexDigits : Nat → Bool → Reading (List Char)
  | 0, _ => do
    bumpLoose
    return []
  | n + 1, isFirst => do
    unless isFirst do bumpLoose
    match ← char? with
    | none => refuse .escapeUnexpectedEnd (← here)
    | some c =>
      if isHexDigit c then
        let rest ← hexDigits n false
        return c :: rest
      else refuse .escapeHexInvalidDigit (← hereChar)

/-- The character of an escape `\x`, `\u` or `\U`, of which the letter stands here. -/
def hexEscape (letter : Char) : Reading Char := do
  let count := if letter = 'x' then 2 else if letter = 'u' then 4 else 8
  bumpLoose
  match ← char? with
  | none => refuse .escapeUnexpectedEnd (← here)
  | some '\x7b' =>
    let brace ← position
    let start := (← hereChar).stop
    bumpLoose
    let digits ← takeWhile isHexDigit
    match ← char? with
    | none => refuse .escapeUnexpectedEnd (← since brace)
    | some '\x7d' =>
      let stop ← position
      bumpLoose
      if digits.isEmpty then refuse .escapeHexEmpty (← since brace)
      match scalar? (number 16 digits) with
      | some c => return c
      | none => refuse .escapeHexInvalid ⟨start, stop⟩
    | some _ => refuse .escapeHexInvalidDigit (← hereChar)
  | some _ =>
    let start ← position
    let digits ← hexDigits count true
    match scalar? (number 16 digits) with
    | some c => return c
    | none => refuse .escapeHexInvalid (← since start)

/-- Splits a text in front of and behind the first place where a mark stands. -/
def splitAtMark (mark : List Char) (seen : List Char) : List Char → Option (List Char × List Char)
  | [] => none
  | c :: rest =>
    if (c :: rest).take mark.length = mark then some (seen.reverse, (c :: rest).drop mark.length)
    else splitAtMark mark (c :: seen) rest

/-- The name of a property in braces, and whether it is negated inside them. -/
def propertyOf (name : List Char) : PropertyName × Bool :=
  match splitAtMark ['!', '='] [] name with
  | some (p, v) => (.value (String.ofList p) (String.ofList v), true)
  | none =>
    match splitAtMark [':'] [] name with
    | some (p, v) => (.value (String.ofList p) (String.ofList v), false)
    | none =>
      match splitAtMark ['='] [] name with
      | some (p, v) => (.value (String.ofList p) (String.ofList v), false)
      | none => (.name (String.ofList name), false)

/-- A property class, of which the letter `p` or `P` stands here. -/
def propertyClass (start : Position) (letter : Char) : Reading SetSyntax := do
  bumpLoose
  match ← char? with
  | none => refuse .escapeUnexpectedEnd (← here)
  | some '\x7b' =>
    bumpLoose
    let name ← takeWhile (· != '\x7d')
    if ← atEnd then refuse .escapeUnexpectedEnd (← here)
    bump
    let (property, negated) := propertyOf name
    return .property property (negated != (letter = 'P')) (← since start)
  | some '\\' => refuse .propertyInvalid (← hereChar)
  | some c =>
    bumpLoose
    return .property (.name (String.singleton c)) (letter = 'P') (← since start)

def metaCharacters : List Char :=
  ['\\', '.', '+', '*', '?', '(', ')', '|', '[', ']', '\x7b', '\x7d', '^', '$', '#', '&', '-', '~']

/-- Characters that may stand behind a backslash for themselves: those of ASCII but letters, digits
and angle brackets. -/
def isEscapable (c : Char) : Bool :=
  metaCharacters.contains c ||
    (c.toNat < 0x80 && !(c.isAlphanum || c = '<' || c = '>'))

/-- Something that is written without brackets: a character, a set, or a condition. -/
inductive Primitive where
  | literal (c : Char) (isByte : Bool)
  | set (s : SetSyntax)
  | dot
  | assertion (a : AssertionSyntax)

/-- The condition named in braces behind `\b`; `none` if the braces hold a count. -/
def namedBoundary? (start : Position) : Reading (Option Assertion) := do
  let before ← get
  let brace ← position
  bumpLoose
  let contents ← position
  match ← char? with
  | none => refuse .boundaryUnexpectedEnd (← since start)
  | some c =>
    let isPart := fun (c : Char) => c.isAlpha || c = '-'
    if !isPart c then
      set before
      return none
    let name ← takeWhile isPart
    if (← char?) != some '\x7d' then refuse .boundaryUnclosed (← since brace)
    let stop ← position
    bump
    match String.ofList name with
    | "start" => return some .wordStart
    | "end" => return some .wordEnd
    | "start-half" => return some .wordStartHalf
    | "end-half" => return some .wordEndHalf
    | _ => refuse .boundaryUnrecognized ⟨contents, stop⟩

/-- What an escape stands for; the backslash stands here. -/
def escape : Reading Primitive := do
  let start ← position
  bump
  match ← char? with
  | none => refuse .escapeUnexpectedEnd (← since start)
  | some c =>
    if c.isDigit then refuse .backreference ⟨start, (← hereChar).stop⟩
    else if c = 'x' ∨ c = 'u' ∨ c = 'U' then
      let isByte := c == 'x' && (← get).rest[1]? != some '\x7b'
      return .literal (← hexEscape c) isByte
    else if c = 'p' ∨ c = 'P' then return .set (← propertyClass start c)
    else
      bump
      let place ← since start
      if isEscapable c then return .literal c false
      match c with
      | 'd' => return .set (.named .digit false place)
      | 'D' => return .set (.named .digit true place)
      | 's' => return .set (.named .space false place)
      | 'S' => return .set (.named .space true place)
      | 'w' => return .set (.named .word false place)
      | 'W' => return .set (.named .word true place)
      | 'a' => return .literal '\x07' false
      | 'f' => return .literal '\x0c' false
      | 't' => return .literal '\t' false
      | 'n' => return .literal '\n' false
      | 'r' => return .literal '\r' false
      | 'v' => return .literal '\x0b' false
      | 'A' => return .assertion (.fixed .textStart)
      | 'z' => return .assertion (.fixed .textEnd)
      | 'B' => return .assertion (.fixed .noWordBoundary)
      | '<' => return .assertion (.fixed .wordStart)
      | '>' => return .assertion (.fixed .wordEnd)
      | 'b' =>
        if (← char?) == some '\x7b' then
          match ← namedBoundary? start with
          | some a => return .assertion (.fixed a)
          | none => return .assertion (.fixed .wordBoundary)
        else return .assertion (.fixed .wordBoundary)
      | _ => refuse .escapeUnrecognized place

/-! ## Sets in brackets -/

def asciiClasses : List (String × AsciiClass) :=
  [("alnum", .alnum), ("alpha", .alpha), ("ascii", .ascii), ("blank", .blank), ("cntrl", .cntrl),
    ("digit", .digit), ("graph", .graph), ("lower", .lower), ("print", .print), ("punct", .punct),
    ("space", .space), ("upper", .upper), ("word", .word), ("xdigit", .xdigit)]

/-- An ASCII class such as `[:alpha:]`, of which the bracket stands here, if it is one. -/
def asciiClass? : Reading (Option SetSyntax) := do
  match (← get).rest with
  | '[' :: ':' :: rest =>
    let negated := rest.head? == some '^'
    let body := if negated then rest.tail else rest
    let name := body.takeWhile (· != ':')
    match asciiClasses.lookup (String.ofList name), body.drop name.length with
    | some c, ':' :: ']' :: _ =>
      let length := name.length + (if negated then 5 else 4)
      (List.range length).forM fun _ => bump
      return some (.ascii c negated)
    | _, _ => return none
  | _ => return none

/-- An open bracket: its range, whether it is negated, what has been joined by operators, and the items
since the last operator. -/
structure OpenSet where
  place : Range
  start : Position
  negated : Bool
  pending : Option (SetSyntax × Char)
  items : SetSyntax
  deriving Inhabited

def applyOperator (op : Char) (a b : SetSyntax) : SetSyntax :=
  if op = '&' then .intersection a b
  else if op = '-' then .difference a b
  else .symmetricDifference a b

def OpenSet.value (s : OpenSet) : SetSyntax :=
  match s.pending with
  | none => s.items
  | some (lhs, op) => applyOperator op lhs s.items

def OpenSet.add (s : OpenSet) (item : SetSyntax) : OpenSet :=
  { s with items := .union s.items item }

def single (c : Char) (isByte : Bool) (place : Range) : SetSyntax :=
  .range ⟨c, isByte, place⟩ ⟨c, isByte, place⟩

/-- Hyphens behind an opening bracket, which stand for themselves. -/
def leadingHyphens (start : Position) : Nat → SetSyntax → Reading SetSyntax
  | 0, items => return items
  | n + 1, items => do
    if (← char?) == some '-' then
      bumpLoose
      if ← atEnd then refuse .classUnclosed ⟨start, start⟩
      leadingHyphens start n (.union items (single '-' false ⟨start, start⟩))
    else return items

/-- Opens a bracket, which stands here. -/
def openSet : Reading OpenSet := do
  let start ← position
  bumpLoose
  if ← atEnd then refuse .classUnclosed (← since start)
  let negated := (← char?) == some '^'
  if negated then
    bumpLoose
    if ← atEnd then refuse .classUnclosed (← since start)
  let items ← leadingHyphens start (← get).rest.length .none
  if items == .none && (← char?) == some ']' then
    bumpLoose
    if ← atEnd then refuse .classUnclosed (← since start)
    let place ← since start
    return ⟨place, start, negated, none, single ']' false place⟩
  return ⟨← since start, start, negated, none, items⟩

/-- A character or set inside brackets, and its range. -/
def setItem : Reading (Primitive × Range) := do
  let start ← position
  match ← char? with
  | some '\\' =>
    let p ← escape
    return (p, ← since start)
  | some c =>
    bump
    return (.literal c false, ← since start)
  | none => refuse .classUnclosed (← here)

def setOfItem (item : Primitive × Range) : Reading SetSyntax :=
  match item.1 with
  | .literal c isByte => return single c isByte item.2
  | .set s => return s
  | _ => refuse .classEscapeInvalid item.2

/-- The character at an end of a range in brackets. -/
def boundaryOfItem (item : Primitive × Range) : Reading Letter :=
  match item.1 with
  | .literal c isByte => return ⟨c, isByte, item.2⟩
  | _ => refuse .classRangeLiteral item.2

/-- The character behind the one in front of the reader, loose white space left out. -/
def peekLoose : Reading (Option Char) := do
  let r ← get
  bumpLoose
  let c ← char?
  set r
  return c

/-- A range or a single item inside the bracket `open_`. -/
def setRange (open_ : OpenSet) : Reading SetSyntax := do
  let first ← setItem
  skipLoose
  if ← atEnd then refuse .classUnclosed open_.place
  let next ← peekLoose
  if (← char?) != some '-' || next == some ']' || next == some '-' then setOfItem first
  else
    bumpLoose
    if ← atEnd then refuse .classUnclosed open_.place
    let second ← setItem
    let place : Range := ⟨first.2.start, second.2.stop⟩
    let lo ← boundaryOfItem first
    let hi ← boundaryOfItem second
    if hi.char.toNat < lo.char.toNat then refuse .classRangeInvalid place
    return .range lo hi

/-- Reads the inside of brackets; `outer` holds the open brackets around the innermost one. -/
def setBody : Nat → OpenSet → List OpenSet → Reading SetSyntax
  | 0, inner, _ => refuse .classUnclosed inner.place
  | n + 1, inner, outer => do
    skipLoose
    match (← get).rest with
    | [] => refuse .classUnclosed inner.place
    | '[' :: _ =>
      match ← asciiClass? with
      | some s => setBody n (inner.add s) outer
      | none =>
        let next ← openSet
        setBody n next (inner :: outer)
    | ']' :: _ =>
      bump
      let closed : SetSyntax := .bracketed inner.negated inner.value (← since inner.start)
      match outer with
      | [] => return closed
      | next :: rest => setBody n (next.add closed) rest
    | a :: b :: _ =>
      if a = b ∧ (a = '&' ∨ a = '-' ∨ a = '~') then
        bump
        bump
        setBody n { inner with pending := some (inner.value, a), items := .none } outer
      else
        let s ← setRange inner
        setBody n (inner.add s) outer
    | [_] =>
      let s ← setRange inner
      setBody n (inner.add s) outer

def bracketedSet : Reading SetSyntax := do
  let first ← openSet
  setBody ((← get).rest.length + 1) first []

/-! ## Groups -/

def flagOf? (c : Char) : Option Flag :=
  match c with
  | 'i' => some .ignoreCase
  | 'm' => some .multiLine
  | 's' => some .dotMatchesNewline
  | 'U' => some .swapGreed
  | 'u' => some .unicode
  | 'R' => some .crlf
  | 'x' => some .ignoreWhitespace
  | _ => none

/-- Reads flags up to a colon or a closing parenthesis. `seen` holds the flags read so far with their
places, and `negation` the place of the hyphen, if one was read. -/
def flagList : Nat → List (Flag × Bool × Range) → Option Range → Bool →
    Reading (List (Flag × Bool × Range))
  | 0, seen, _, _ => return seen
  | n + 1, seen, negation, dangling => do
    match ← char? with
    | none => refuse .flagUnexpectedEnd (← here)
    | some c =>
      if c = ':' ∨ c = ')' then
        match negation, dangling with
        | some place, true => refuse .flagDanglingNegation place
        | _, _ => return seen
      else if c = '-' then
        let place ← hereChar
        match negation with
        | some earlier => throw ⟨.flagRepeatedNegation, place, some earlier⟩
        | none =>
          bump
          flagList n seen (some place) true
      else
        let place ← hereChar
        match flagOf? c with
        | none => refuse .flagUnrecognized place
        | some flag =>
          match seen.find? fun s => s.1 == flag with
          | some (_, _, earlier) => throw ⟨.flagDuplicate, place, some earlier⟩
          | none =>
            bump
            flagList n (seen ++ [(flag, negation.isNone, place)]) negation false

def isNameCharacter (c : Char) (isFirst : Bool) : Bool :=
  let letter := CharSet.contains (.union (.named .letter) (.named .number)) c
  if isFirst then c = '_' || Text.Property.isLetter c
  else c = '_' || c = '.' || c = '[' || c = ']' || letter

/-- The name of a group up to `>`, which is passed. -/
def groupName : Reading Unit := do
  if ← atEnd then refuse .groupNameUnexpectedEnd (← here)
  let start ← position
  let name ← letters (← get).rest.length true
  let stop ← position
  if ← atEnd then refuse .groupNameUnexpectedEnd (← here)
  bump
  if name.isEmpty then refuse .groupNameEmpty ⟨start, start⟩
  let text := String.ofList name
  let place : Range := ⟨start, stop⟩
  match (← get).names.lookup text with
  | some earlier => throw ⟨.groupNameDuplicate, place, some earlier⟩
  | none => modify fun r => { r with names := (text, place) :: r.names }
where
  letters : Nat → Bool → Reading (List Char)
    | 0, _ => return []
    | n + 1, isFirst => do
      match ← char? with
      | none => return []
      | some c =>
        if c = '>' then return []
        else if isNameCharacter c isFirst then
          bump
          let rest ← letters n false
          return c :: rest
        else refuse .groupNameInvalid (← hereChar)

/-- What an opening parenthesis begins. -/
inductive Opening where
  | group (flags : FlagChanges)
  | flags (changes : FlagChanges)

def opening : Reading Opening := do
  let place ← hereChar
  bump
  skipLoose
  let lookaround ← do
    let ahead ← pure ((← takeText ['?', '=']) || (← takeText ['?', '!']))
    pure (ahead || (← takeText ['?', '<', '=']) || (← takeText ['?', '<', '!']))
  if lookaround then refuse .lookAround ⟨place.start, ← position⟩
  let inner ← here
  if (← takeText ['?', 'P', '<']) || (← takeText ['?', '<']) then
    groupName
    return .group []
  else if ← takeText ['?'] then
    if ← atEnd then refuse .groupUnclosed place
    let flags ← flagList ((← get).rest.length + 1) [] none false
    let changes := flags.map fun f => (f.1, f.2.1)
    let isDirective := (← char?) == some ')'
    bump
    if isDirective then
      if flags.isEmpty then refuse .repetitionMissing inner
      return .flags changes
    else return .group changes
  else return .group []

/-! ## Whole patterns -/

/-- A group that is still open: the part of the pattern in front of it, the alternatives in front of the
one being read, the items of that one, and its own flags. -/
structure Frame where
  place : Range
  flags : FlagChanges
  loose : Bool
  alternatives : List Written
  items : List Written
  deriving Inhabited

/-- The items of a sequence, last first, as one expression. -/
def sequence : List Written → Written
  | [] => .empty
  | [r] => r
  | r :: rest => .seq (sequence rest) r

/-- Alternatives, last first, as one expression. -/
def choice : List Written → Written
  | [] => .empty
  | [r] => r
  | r :: rest => .alt (choice rest) r

/-- Whether white space is left out after some changes of flags. -/
def looseAfter (loose : Bool) (changes : FlagChanges) : Bool :=
  (changes.lookup .ignoreWhitespace).getD loose

/-- The last item, which a repetition operator applies to, and the items in front of it. -/
def repeated (items : List Written) : Reading (Written × List Written) := do
  match items with
  | [] => refuse .repetitionMissing (← here)
  | .empty :: _ | .flags _ :: _ => refuse .repetitionMissing (← here)
  | r :: rest => return (r, rest)

/-- A count in braces; `none` if no digit stands here. -/
def decimal : Reading (Option Nat × Range) := do
  let _ ← takeWhile Text.isBlank
  let start ← position
  let digits ← takeWhile fun c => 48 ≤ c.toNat && c.toNat ≤ 57
  let place ← since start
  let _ ← takeWhile Text.isBlank
  if digits.isEmpty then return (none, place)
  let n := number 10 digits
  if 0xFFFFFFFF < n then refuse .decimalInvalid place
  return (some n, place)

def required (count : Option Nat × Range) : Reading Nat :=
  match count.1 with
  | some n => return n
  | none => refuse .repetitionCountEmpty count.2

/-- Counts in braces, of which the first stands here. -/
def counts : Reading (Nat × Option Nat) := do
  let start ← position
  bumpLoose
  if ← atEnd then refuse .repetitionCountUnclosed (← since start)
  let least ← decimal
  if ← atEnd then refuse .repetitionCountUnclosed (← since start)
  let (low, high) ←
    if (← char?) == some ',' then
      bumpLoose
      if ← atEnd then refuse .repetitionCountUnclosed (← since start)
      if (← char?) != some '\x7d' then
        let low ← required least
        let high ← required (← decimal)
        pure (low, some high)
      else
        let low ← required least
        pure (low, none)
    else
      let n ← required least
      pure (n, some n)
  if (← char?) != some '\x7d' then refuse .repetitionCountUnclosed (← since start)
  bumpLoose
  if (← char?) == some '?' then bump
  let place ← since start
  if high.any (· < low) then refuse .repetitionCountInvalid place
  return (low, high)

def writtenOf (place : Range) : Primitive → Written
  | .literal c isByte => .literal ⟨c, isByte, place⟩
  | .set s => .set s
  | .dot => .dot place
  | .assertion a => .assertion a

def primitive : Reading Written := do
  let start ← position
  match ← char? with
  | some '\\' =>
    let p ← escape
    return writtenOf (← since start) p
  | some '.' =>
    bump
    return .dot (← since start)
  | some '^' =>
    bump
    return .assertion .lineStart
  | some '$' =>
    bump
    return .assertion .lineEnd
  | some c =>
    bump
    return .literal ⟨c, false, ← since start⟩
  | none => return .empty

/-- The frame with its last item repeated by an operator of one character, which is passed. -/
def Frame.repeatLast (frame : Frame) (least : Nat) (most : Option Nat) : Reading Frame := do
  let (r, items) ← repeated frame.items
  bump
  if (← char?) == some '?' then bump
  return { frame with items := .repetition least most r :: items }

/-- Reads a pattern to its end; `frame` is the innermost open group and `outer` those around it. -/
def pattern : Nat → Frame → List Frame → Reading Written
  | 0, frame, _ => refuse .groupUnclosed frame.place
  | n + 1, frame, outer => do
    skipLoose
    let push := fun (r : Written) => { frame with items := r :: frame.items }
    match ← char? with
    | none =>
      match outer with
      | [] => return choice (sequence frame.items :: frame.alternatives)
      | _ => refuse .groupUnclosed frame.place
    | some '(' =>
      let place ← hereChar
      match ← opening with
      | .flags changes =>
        modify fun r => { r with loose := looseAfter r.loose changes }
        pattern n (push (.flags changes)) outer
      | .group changes =>
        let loose := (← get).loose
        modify fun r => { r with loose := looseAfter r.loose changes }
        pattern n ⟨place, changes, loose, [], []⟩ (frame :: outer)
    | some ')' =>
      match outer with
      | [] => refuse .groupUnopened (← hereChar)
      | next :: rest =>
        bump
        modify fun r => { r with loose := frame.loose }
        let inside := choice (sequence frame.items :: frame.alternatives)
        pattern n { next with items := .group frame.flags inside :: next.items } rest
    | some '|' =>
      bump
      let alternatives := sequence frame.items :: frame.alternatives
      pattern n { frame with alternatives := alternatives, items := [] } outer
    | some '[' =>
      let s ← bracketedSet
      pattern n (push (.set s)) outer
    | some '?' => pattern n (← frame.repeatLast 0 (some 1)) outer
    | some '*' => pattern n (← frame.repeatLast 0 none) outer
    | some '+' => pattern n (← frame.repeatLast 1 none) outer
    | some '\x7b' =>
      let (r, items) ← repeated frame.items
      let (least, most) ← counts
      pattern n { frame with items := .repetition least most r :: items } outer
    | some _ =>
      let r ← primitive
      pattern n (push r) outer

end Reading

def parse? (text : List Char) : Except Refusal Written := do
  let reader : Reader := ⟨text, ⟨1, 1⟩, false, []⟩
  let (r, _) ← (Reading.pattern (text.length + 1) ⟨default, [], false, [], []⟩ []).run reader
  return r

end Localization.Regex
