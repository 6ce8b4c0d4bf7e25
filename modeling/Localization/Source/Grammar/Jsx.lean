import Localization.Source.Entity
import Localization.Source.Grammar.Type

/-!
Elements. Between the tags of an element there is text, so a reader of an element stops at its last
`>` without passing it: what is read behind it depends on what stands around the element.
-/

namespace Localization.Source.Parser

/-- A node from `lo` up to the current token, which is a part of it but is not passed. -/
def nodeThrough (kind : Kind) (lo : Nat) (children : List Node) : Parser Node := do
  return .mk kind ⟨lo, (← token).span.hi⟩ children

def requireMark (m : Mark) : Parser Unit := do
  unless ← isMark m do fail

def tagWord : Parser String := do
  let c ← get
  match scanTagName ⟨c.start, c.token.span.lo⟩ with
  | none => fail
  | some name =>
    moveTo name.after
    return name.text

/-- The name of an element: words divided by dots, or two words divided by a colon. -/
def tagName : Parser String := do
  let first ← tagWord
  if ← takeMark .colon then
    let second ← tagWord
    return first ++ ":" ++ second
  else
    let others ← many do
      unless ← takeMark .dot do return none
      return some (← tagWord)
    return others.foldl (fun name word => name ++ "." ++ word) first

def attributeString (c : Cursor) (quote : Char) : Parser Node := do
  match scanAttributeString quote [] c.start.tail (c.token.span.lo + 1) with
  | none => fail
  | some (text, after) =>
    moveTo after
    return .leaf (.jsxString (String.ofList (Entity.decode text))) ⟨c.token.span.lo, after.offset⟩

/-- The value of an attribute: a string, an expression in braces or an element. -/
def attributeValue (self : Goal → Parser Node) : Parser Node := do
  let c ← get
  match c.start with
  | '\x22' :: _ => attributeString c '\x22'
  | '\x27' :: _ => attributeString c '\x27'
  | _ =>
    if ← takeMark .leftBrace then
      let e ← bracketed (self .expression)
      expectMark .rightBrace
      node .jsxContainer c.token.span.lo [e]
    else
      requireMark .less
      let e ← self .element
      bump
      return e

def tagAttribute (self : Goal → Parser Node) : Parser Node := do
  let lo ← here
  if ← takeMark .leftBrace then
    expectMark .ellipsis
    let e ← bracketed (self .assignment)
    expectMark .rightBrace
    node .jsxSpreadAttribute lo [e]
  else
    let _ ← tagWord
    if ← takeMark .colon then
      let _ ← tagWord
    let name ← node .jsxName lo []
    if ← takeMark .equal then
      let value ← attributeValue self
      node .jsxAttribute lo [name, value]
    else node .jsxAttribute lo [name]

def tagAttributes (self : Goal → Parser Node) : Parser (List Node) :=
  many do
    if (← isMark .slash) || (← isMark .greater) then return none
    return some (← tagAttribute self)

/-- Element text with a line feed for each line end of two characters. -/
def joinLineEnds : List Char → List Char
  | [] => []
  | '\r' :: '\n' :: rest => '\n' :: joinLineEnds rest
  | c :: rest => c :: joinLineEnds rest

/-- The text behind the current token, up to a brace or a tag, which becomes the current token. -/
def childText : Parser (List Node) := do
  let c ← get
  match scanElementText [] c.after.rest c.after.offset with
  | none => fail
  | some (text, place) =>
    let (kind, after) := tokenAt place
    set { c with
      token := ⟨kind, ⟨place.offset, after.offset⟩, false⟩
      start := place.rest
      after := after
      previousEnd := place.offset }
    if text.isEmpty then return []
    let value := String.ofList (Entity.decode (joinLineEnds text))
    return [.leaf (.jsxText value) ⟨c.after.offset, place.offset⟩]

/-- Braces between tags: an expression, a spread or a comment. -/
def childContainer (self : Goal → Parser Node) : Parser Node := do
  let lo ← here
  expectMark .leftBrace
  if ← isMark .rightBrace then
    let empty ← node .jsxEmpty (← get).previousEnd []
    nodeThrough .jsxContainer lo [empty]
  else if ← takeMark .ellipsis then
    let e ← bracketed (self .expression)
    requireMark .rightBrace
    nodeThrough .jsxSpreadChild lo [e]
  else
    let e ← bracketed (self .expression)
    requireMark .rightBrace
    nodeThrough .jsxContainer lo [e]

/-- What stands between the tags of an element. Stops at the `<` of the closing tag. -/
def children (self : Goal → Parser Node) : Parser (List Node) := do
  let first ← childText
  let more ← many do
    if ← isMark .leftBrace then
      let e ← childContainer self
      return some (e :: (← childText))
    else
      if (← peek).kind == .mark .slash then return none
      let e ← self .element
      return some (e :: (← childText))
  return first ++ more.flatten

/-- An element or a fragment from its `<` up to its last `>`, which is not passed. -/
def jsxElement (self : Goal → Parser Node) : Parser Node := do
  let lo ← here
  expectMark .less
  if ← isMark .greater then
    let opening ← nodeThrough .jsxOpening lo []
    let inner ← children self
    let closingLo ← here
    expectMark .less
    expectMark .slash
    requireMark .greater
    let closing ← nodeThrough .jsxClosing closingLo []
    nodeThrough .jsxFragment lo (opening :: inner ++ [closing])
  else
    let nameLo ← here
    let name ← tagName
    let nameNode ← node .jsxName nameLo []
    let types ← if ← isMark .less then pure [← typeArguments self] else pure []
    let values ← tagAttributes self
    if ← takeMark .slash then
      requireMark .greater
      let opening ← nodeThrough .jsxOpening lo (nameNode :: values ++ types)
      nodeThrough .jsxElement lo [opening]
    else
      let opening ← nodeThrough .jsxOpening lo (nameNode :: values ++ types)
      let inner ← children self
      let closingLo ← here
      expectMark .less
      expectMark .slash
      unless (← tagName) == name do fail
      requireMark .greater
      let closing ← nodeThrough .jsxClosing closingLo []
      nodeThrough .jsxElement lo (opening :: inner ++ [closing])

end Localization.Source.Parser
