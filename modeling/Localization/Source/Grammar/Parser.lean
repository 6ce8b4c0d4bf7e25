import Localization.Source.Scan

/-!
Reading syntax trees. A reader holds one token and the text around it; the grammar modules are written
over the operations of this module. The constructs that contain each other are named by `Goal`, and a
grammar function takes the reader of all goals as an argument.
-/

namespace Localization.Source

/-- Where a source was refused. -/
structure SyntaxError where
  offset : Nat
  deriving DecidableEq, Repr

/-- What the constructs around the reader say about it. -/
structure Flags where
  /-- Elements may stand in expressions. -/
  jsx : Bool
  inAsync : Bool
  inGenerator : Bool
  /-- The operator `in` does not belong to the expression. -/
  withoutIn : Bool
  /-- A colon behind a parameter list belongs to a conditional around it. -/
  colonAhead : Bool
  /-- The check of a conditional type: no conditional type may follow. -/
  withoutConditional : Bool
  /-- Declarations describe values that exist elsewhere. -/
  ambient : Bool
  deriving DecidableEq, Repr, Inhabited

/-- A reader's state. -/
structure Cursor where
  token : Token
  /-- The text from the token's first character on. -/
  start : List Char
  /-- The place behind the token. -/
  after : Place
  /-- The end of the token in front of this one. -/
  previousEnd : Nat
  /-- The length of the whole text in bytes. -/
  size : Nat
  flags : Flags
  deriving Inhabited

/-- A computation that reads from the front of a text or refuses it. -/
abbrev Parser := StateT Cursor (Except SyntaxError)

/-- The constructs that contain each other. -/
inductive Goal where
  /-- Expressions divided by commas. -/
  | expression
  | assignment
  | unary
  /-- An operand with its member accesses and calls. -/
  | leftHandSide
  /-- An operand with its member accesses: what `new` is put in front of. -/
  | callee
  | element
  | pattern
  | type
  | block
  /-- A statement; `listed` ones may also be declarations. -/
  | statement (listed : Bool)
  /-- A statement or declaration of a module, or one of its imports and exports. -/
  | moduleItem
  deriving DecidableEq, Repr

namespace Parser

def fail {α : Type} : Parser α := fun c => .error ⟨c.token.span.lo⟩

/-- Gives `none`, and reads nothing, where `p` refuses the text. -/
def attempt {α : Type} (p : Parser α) : Parser (Option α) := fun c =>
  match p c with
  | .ok (a, after) => .ok (some a, after)
  | .error _ => .ok (none, c)

/-- Whether `p` would accept the text; reads nothing. -/
def looksLike {α : Type} (p : Parser α) : Parser Bool := fun c =>
  match p c with
  | .ok _ => .ok (true, c)
  | .error _ => .ok (false, c)

/-- Repeats a step until it gives `none`, at most as often as characters are left. -/
def many {α : Type} (step : Parser (Option α)) : Parser (List α) := fun c =>
  loop (c.size - c.token.span.lo + 2) c
where
  loop : Nat → Parser (List α)
    | 0 => fail
    | fuel + 1 => do
      match ← step with
      | none => return []
      | some a =>
        let rest ← loop fuel
        return a :: rest

/-- Extends a result step by step until a step gives `none`. -/
def extending {α : Type} (first : α) (step : α → Parser (Option α)) : Parser α := fun c =>
  loop (c.size - c.token.span.lo + 2) first c
where
  loop : Nat → α → Parser α
    | 0, _ => fail
    | fuel + 1, a => do
      match ← step a with
      | none => return a
      | some b => loop fuel b

/-! ## Tokens -/

def token : Parser Token := do return (← get).token

def here : Parser Nat := do return (← get).token.span.lo

/-- Whether a line ended in front of the current token. -/
def newlineBefore : Parser Bool := do return (← get).token.newlineBefore

/-- Makes the token behind `p` the current one. -/
def moveTo (p : Place) : Parser Unit := modify fun c =>
  let next := nextToken false p
  { c with token := next.token, start := next.start, after := next.after, previousEnd := p.offset }

def bump : Parser Unit := do moveTo (← get).after

/-- The token behind the current one. -/
def peek : Parser Token := do return (nextToken false (← get).after).token

def isMark (m : Mark) : Parser Bool := do return (← get).token.kind == .mark m

/-- Passes a mark if it stands here. -/
def takeMark (m : Mark) : Parser Bool := do
  if ← isMark m then
    bump
    return true
  else return false

def expectMark (m : Mark) : Parser Unit := do
  unless ← takeMark m do fail

/-- Whether a token is a given word, written without escapes. -/
def isWordToken (t : Token) (word : String) : Bool :=
  t.kind == .name word false

def isWord (word : String) : Parser Bool := do return isWordToken (← get).token word

def takeWord (word : String) : Parser Bool := do
  if ← isWord word then
    bump
    return true
  else return false

def expectWord (word : String) : Parser Unit := do
  unless ← takeWord word do fail

/-- The text of a name, keywords included. -/
def nameOf? (t : Token) : Option String :=
  match t.kind with
  | .name text _ => some text
  | _ => none

def anyName : Parser String := do
  match nameOf? (← token) with
  | some text =>
    bump
    return text
  | none => fail

/-- The words that are never names of values. -/
def reservedWords : List String :=
  ["break", "case", "catch", "class", "const", "continue", "debugger", "default", "delete", "do",
    "else", "enum", "export", "extends", "false", "finally", "for", "function", "if", "import", "in",
    "instanceof", "new", "null", "return", "super", "switch", "this", "throw", "true", "try", "typeof",
    "var", "void", "while", "with"]

def identifierOf? (t : Token) : Option String :=
  match nameOf? t with
  | some text => if reservedWords.contains text then none else some text
  | none => none

def isIdentifier : Parser Bool := do return (identifierOf? (← token)).isSome

def identifier : Parser String := do
  match identifierOf? (← token) with
  | some text =>
    bump
    return text
  | none => fail

/-- A statement ends at a semicolon, at a closing brace, at the end of a line or of the text. -/
def canEnd : Parser Bool := do
  let t ← token
  return t.newlineBefore || t.kind == .mark .semicolon || t.kind == .mark .rightBrace ||
    t.kind == .endOfText

def semicolon : Parser Unit := do
  if ← canEnd then
    let _ ← takeMark .semicolon
  else fail

/-! ## Nodes -/

/-- A node from `lo` up to the last token passed. -/
def node (kind : Kind) (lo : Nat) (children : List Node) : Parser Node := do
  return .mk kind ⟨lo, (← get).previousEnd⟩ children

/-- The node of an element that is left out in front of the current token. -/
def hole : Parser Node := do
  let lo ← here
  return Node.leaf .hole ⟨lo, lo⟩

/-- A leaf for the current token, which is passed. -/
def leaf (kind : Kind) : Parser Node := do
  let span := (← token).span
  bump
  return .leaf kind span

/-- Runs `p` with other flags. -/
def withFlags {α : Type} (change : Flags → Flags) (p : Parser α) : Parser α := do
  let flags := (← get).flags
  modify fun c => { c with flags := change flags }
  let a ← p
  modify fun c => { c with flags := flags }
  return a

/-- Inside brackets the constructs around them do not matter. -/
def bracketed {α : Type} (p : Parser α) : Parser α :=
  withFlags
    (fun f => { f with withoutIn := false, colonAhead := false, withoutConditional := false }) p

/-- Items divided by commas up to a closing mark, which is passed; a last comma may be left over. -/
def commaList {α : Type} (close : Mark) (item : Parser α) : Parser (List α) := do
  let items ← many do
    if ← isMark close then return none
    let a ← item
    unless ← isMark close do expectMark .comma
    return some a
  expectMark close
  return items

/-- Reads a template from its opening backtick: the substitutions and the texts. The escapes of the
texts matter unless a tag stands in front of the template. -/
def template (tagged : Bool) (substitution : Parser Node) : Parser (List Node × List Node) := do
  let pieces ← many piece
  let last ← get
  moveTo last.after
  return (pieces.filter fun n => !(n.kind == .templateText),
    pieces.filter fun n => n.kind == .templateText)
where
  /-- Reads one text, or the substitution behind it; the current token is the backtick or the closing
  brace in front of a text, and an opening brace in front of a substitution. -/
  piece : Parser (Option Node) := do
    let c ← get
    if c.token.kind == .mark .leftBrace then
      bump
      let e ← bracketed substitution
      unless ← isMark .rightBrace do fail
      return some e
    else if c.token.kind == .endOfText then return none
    else
      match scanTemplate [] false c.after.rest c.after.offset with
      | none => fail
      | some (text, how, after) =>
        unless tagged || validEscapes text.reverse do fail
        let span : Span := ⟨c.after.offset, after.offset - (if how == .backtick then 1 else 2)⟩
        match how with
        | .backtick =>
          set { c with token := ⟨.endOfText, ⟨after.offset, after.offset⟩, false⟩, after := after }
        | .substitution =>
          set { c with token := ⟨.mark .leftBrace, ⟨after.offset - 1, after.offset⟩, false⟩
                       after := after }
        return some (.leaf .templateText span)

end Parser

end Localization.Source
