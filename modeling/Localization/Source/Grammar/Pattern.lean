import Localization.Source.Grammar.Parser

/-!
Binding patterns, property keys and parameter lists.
-/

namespace Localization.Source.Parser

def annotation? (self : Goal → Parser Node) : Parser (List Node) := do
  if ← takeMark .colon then
    let t ← withFlags (fun f => { f with withoutConditional := false }) (self .type)
    return [t]
  else return []

def decorators (self : Goal → Parser Node) : Parser (List Node) :=
  many do
    unless ← isMark .at do return none
    let lo ← here
    bump
    let e ← self .leftHandSide
    return some (← node .decorator lo [e])

/-- The key of a property or member; `privates` allows private names. -/
def propertyKey (self : Goal → Parser Node) (privates : Bool) : Parser Node := do
  let t ← token
  match t.kind with
  | .name text _ => leaf (.keyName text)
  | .string value => leaf (.keyString value)
  | .number | .bigint => leaf .keyNumber
  | .privateName text => if privates then leaf (.privateName text) else fail
  | .mark .leftBracket =>
    bump
    let e ← bracketed (self .assignment)
    expectMark .rightBracket
    node .keyComputed t.span.lo [e]
  | _ => fail

/-- A default value behind a pattern, if an equals sign stands here. -/
def withDefault (self : Goal → Parser Node) (lo : Nat) (target : Node) : Parser Node := do
  if ← takeMark .equal then
    let value ← self .assignment
    node .defaultPattern lo [target, value]
  else return target

def patternElement (self : Goal → Parser Node) : Parser Node := do
  let lo ← here
  let target ← self .pattern
  withDefault self lo target

/-- `...pattern`, with a type annotation where parameters are listed. -/
def restElement (self : Goal → Parser Node) : Parser Node := do
  let lo ← here
  expectMark .ellipsis
  let target ← self .pattern
  let types ← annotation? self
  node .restPattern lo (target :: types)

/-- One element of an array pattern; a left-out element is a hole. -/
def arrayPatternElement (self : Goal → Parser Node) : Parser Node := do
  if ← isMark .comma then hole
  else if ← isMark .ellipsis then restElement self
  else patternElement self

def objectPatternProperty (self : Goal → Parser Node) : Parser Node := do
  let lo ← here
  if ← isMark .ellipsis then restElement self
  else
    let bound := nameOf? (← token)
    let nameSpan := (← token).span
    let key ← propertyKey self false
    if ← takeMark .colon then
      let value ← patternElement self
      node .keyPattern lo [key, value]
    else
      match bound with
      | none => fail
      | some name =>
        let target := Node.leaf (.binding name) nameSpan
        if ← takeMark .equal then
          let value ← self .assignment
          node .shorthandPattern lo [target, value]
        else node .shorthandPattern lo [target]

/-- A name, an array pattern or an object pattern. A name declared by `let` or `const` is not `let`
itself; that is up to the declaration. -/
def bindingPattern (self : Goal → Parser Node) : Parser Node := do
  let t ← token
  match t.kind with
  | .mark .leftBracket =>
    bump
    let items ← bracketed (commaList .rightBracket (arrayPatternElement self))
    node .arrayPattern t.span.lo items
  | .mark .leftBrace =>
    bump
    let items ← bracketed (commaList .rightBrace (objectPatternProperty self))
    node .objectPattern t.span.lo items
  | _ =>
    let name ← identifier
    node (.binding name) t.span.lo []

/-- Adds the parts of a type annotation to a pattern. -/
def annotated (target : Node) (types : List Node) (hi : Nat) : Node :=
  match types with
  | [] => target
  | _ => .mk target.kind ⟨target.span.lo, hi⟩ (target.children ++ types)

/-- The words that turn a parameter of a constructor into a member. -/
def parameterModifiers : List String :=
  ["public", "private", "protected", "readonly", "override"]

/-- Passes the modifiers in front of a parameter: words that a further name or pattern follows. -/
def skipParameterModifiers : Parser Unit := do
  let _ ← many do
    match nameOf? (← token) with
    | none => return none
    | some word =>
      unless parameterModifiers.contains word do return none
      match (← peek).kind with
      | .name _ _ | .mark .leftBrace | .mark .leftBracket =>
        bump
        return some ()
      | _ => return none

/-- One parameter of a function: decorators, pattern, question mark, type and default value. -/
def parameter (self : Goal → Parser Node) : Parser Node := do
  let lo ← here
  let marks ← decorators self
  skipParameterModifiers
  if ← isMark .ellipsis then
    let target ← restElement self
    let target ← withDefault self lo target
    node .parameter lo (marks ++ [target])
  else
    let patternLo ← here
    let target ←
      if ← isWord "this" then leaf (.binding "this") else self .pattern
    let _ ← takeMark .question
    let types ← annotation? self
    let target := annotated target types (← get).previousEnd
    let target ← withDefault self patternLo target
    node .parameter lo (marks ++ [target])

def parameters (self : Goal → Parser Node) : Parser (List Node) := do
  expectMark .leftParen
  bracketed (commaList .rightParen (parameter self))

end Localization.Source.Parser
