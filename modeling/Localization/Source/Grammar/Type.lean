import Localization.Source.Grammar.Pattern

/-!
Types: annotations, type parameters, type arguments, and the members of interfaces. A type is a node
that holds the types and expressions inside it.
-/

namespace Localization.Source.Parser

/-- A node for a type with the given parts. -/
def typeNode (lo : Nat) (parts : List Node) : Parser Node :=
  node .type lo parts

def typeParameters? (self : Goal → Parser Node) : Parser (List Node) := do
  unless ← isMark .less do return []
  let lo ← here
  bump
  let items ← bracketed (commaList .greater one)
  return [← typeNode lo items]
where
  /-- One type parameter: modifiers, name, constraint and default. -/
  one : Parser Node := do
    let lo ← here
    let _ ← many do
      if (← isWord "const") || (((← isWord "in") || (← isWord "out")) &&
          (nameOf? (← peek)).isSome) then
        bump
        return some ()
      else return none
    let _ ← identifier
    let bounds ← if ← takeWord "extends" then pure [← self .type] else pure []
    let defaults ← if ← takeMark .equal then pure [← self .type] else pure []
    typeNode lo (bounds ++ defaults)

/-- Type arguments, which have to stand here. -/
def typeArguments (self : Goal → Parser Node) : Parser Node := do
  let lo ← here
  expectMark .less
  let items ← bracketed (commaList .greater (self .type))
  typeNode lo items

/-- Type arguments on the same line, if there are any. -/
def typeArguments? (self : Goal → Parser Node) : Parser (List Node) := do
  if (← isMark .less) && !(← newlineBefore) then return [← typeArguments self]
  else return []

/-- The type that a function returns; it may also say what the function finds out about a name. -/
def returnType (self : Goal → Parser Node) : Parser Node := do
  let lo ← here
  let next ← peek
  let nextName := (nameOf? next).isSome && !next.newlineBefore
  if (← isWord "asserts") && nextName && !(isWordToken next "is") then
    bump
    bump
    if (← isWord "is") && !(← newlineBefore) then
      bump
      let t ← self .type
      typeNode lo [t]
    else typeNode lo []
  else if ((← isWord "this") || (← isIdentifier)) && isWordToken next "is" && nextName then
    bump
    bump
    let t ← self .type
    typeNode lo [t]
  else self .type

def returnAnnotation? (self : Goal → Parser Node) : Parser (List Node) := do
  if ← takeMark .colon then
    return [← withFlags (fun f => { f with withoutConditional := false }) (returnType self)]
  else return []

/-- Names divided by dots. -/
def entityName (first : Parser String) : Parser Unit := do
  let _ ← first
  let _ ← many do
    unless ← takeMark .dot do return none
    if let .privateName _ := (← token).kind then bump
    else
      let _ ← anyName
    return some ()

def beginsKey (t : Token) : Bool :=
  match t.kind with
  | .name _ _ | .string _ | .number | .bigint | .privateName _ | .mark .leftBracket => true
  | _ => false

/-- Whether an index signature `[name: type]` stands here. -/
def isIndexSignature : Parser Bool :=
  looksLike do
    expectMark .leftBracket
    let _ ← identifier
    unless ← isMark .colon do expectMark .comma

def indexSignature (self : Goal → Parser Node) : Parser (List Node) := do
  expectMark .leftBracket
  let ps ← bracketed (commaList .rightBracket (parameter self))
  let types ← annotation? self
  return ps ++ types

/-- The parameters of a signature, which have no default values. -/
def signatureParameters (self : Goal → Parser Node) : Parser (List Node) := do
  let ps ← parameters self
  if ps.any (fun p => p.children.any (·.kind == .defaultPattern)) then fail
  return ps

/-- Type parameters, parameters and the annotation of a call or method signature. -/
def signatureRest (self : Goal → Parser Node) : Parser (List Node) := do
  let typeParams ← typeParameters? self
  let ps ← signatureParameters self
  let types ← returnAnnotation? self
  return ps ++ types ++ typeParams

def typeMember (self : Goal → Parser Node) : Parser Node := do
  let lo ← here
  let parts ← signature
  unless (← takeMark .semicolon) || (← takeMark .comma) do
    unless ← canEnd do fail
  node .signature lo parts
where
  /-- The key as an expression. -/
  key : Parser Node := do
    let k ← propertyKey self true
    match k.kind with
    | .keyString value => return .leaf (.string value) k.span
    | _ => return k
  signature : Parser (List Node) := do
    let next ← peek
    if (← isMark .leftParen) || (← isMark .less) then signatureRest self
    else if (← isWord "new") && (next.kind == .mark .leftParen || next.kind == .mark .less) then
      bump
      signatureRest self
    else
      if (← isWord "readonly") && beginsKey next && !next.newlineBefore then bump
      if ← isIndexSignature then indexSignature self
      else
        let next ← peek
        if ((← isWord "get") || (← isWord "set")) && beginsKey next then
          bump
          let k ← key
          let rest ← signatureRest self
          return k :: rest
        else
          let k ← key
          let _ ← takeMark .question
          let rest ←
            if (← isMark .leftParen) || (← isMark .less) then signatureRest self
            else annotation? self
          return k :: rest

/-- The members of an interface or of a type literal, with the braces around them. -/
def typeMembers (self : Goal → Parser Node) : Parser (List Node) := do
  expectMark .leftBrace
  let members ← bracketed (many do
    if ← isMark .rightBrace then return none
    return some (← typeMember self))
  expectMark .rightBrace
  return members

/-- A plus or minus sign in front of a modifier of a mapped type. -/
def mappedSign : Parser Unit := do
  unless ← takeMark .plus do
    let _ ← takeMark .minus

/-- The part of a mapped type up to its `in`. -/
def mappedHead : Parser Unit := do
  expectMark .leftBrace
  mappedSign
  let _ ← takeWord "readonly"
  expectMark .leftBracket
  let _ ← identifier
  expectWord "in"

def mappedRest (self : Goal → Parser Node) : Parser (List Node) := do
  let keys ← self .type
  let renamed ← if ← takeWord "as" then pure [← self .type] else pure []
  expectMark .rightBracket
  mappedSign
  let _ ← takeMark .question
  let types ← annotation? self
  unless ← takeMark .semicolon do
    let _ ← takeMark .comma
  expectMark .rightBrace
  return keys :: renamed ++ types

/-- An element of a tuple type, perhaps with a label. -/
def tupleElement (self : Goal → Parser Node) : Parser Node := do
  let lo ← here
  let _ ← takeMark .ellipsis
  let _ ← attempt do
    let _ ← anyName
    let _ ← takeMark .question
    expectMark .colon
  let t ← self .type
  let _ ← takeMark .question
  typeNode lo [t]

/-- The head of a function type: parameters and arrow. -/
def functionTypeHead (self : Goal → Parser Node) : Parser (List Node) := do
  let typeParams ← typeParameters? self
  let ps ← signatureParameters self
  expectMark .arrow
  return typeParams ++ ps

/-- Words that are a type each, with nothing behind them. -/
def soleTypes : List String :=
  ["this", "true", "false"]

/-- Words that are a type each unless a dot follows. -/
def namedTypes : List String :=
  ["any", "bigint", "boolean", "never", "null", "number", "object", "string", "symbol", "undefined",
    "unknown", "void"]

/-- A type that is not built from others by operators around it. -/
def primaryType (self : Goal → Parser Node) : Parser Node := do
  let t ← token
  let lo := t.span.lo
  match t.kind with
  | .string _ | .number | .bigint =>
    bump
    typeNode lo []
  | .mark .minus =>
    bump
    match (← token).kind with
    | .number | .bigint =>
      bump
      typeNode lo []
    | _ => fail
  | .mark .backtick =>
    let (types, _) ← template false (self .type)
    typeNode lo types
  | .mark .leftBrace =>
    match ← attempt mappedHead with
    | some _ =>
      let parts ← bracketed (mappedRest self)
      typeNode lo parts
    | none =>
      let members ← typeMembers self
      typeNode lo members
  | .mark .leftBracket =>
    bump
    let items ← bracketed (commaList .rightBracket (tupleElement self))
    typeNode lo items
  | .mark .leftParen =>
    bump
    let inner ← bracketed (self .type)
    expectMark .rightParen
    typeNode lo [inner]
  | .name "typeof" _ =>
    bump
    if ← isWord "import" then importType lo
    else
      entityName anyName
      let args ← typeArguments? self
      typeNode lo args
  | .name "import" _ => importType lo
  | .name text _ =>
    let next ← peek
    if soleTypes.contains text || (namedTypes.contains text && !(next.kind == .mark .dot)) then
      bump
      typeNode lo []
    else
      entityName (if text == "void" || text == "null" then anyName else identifier)
      let args ← typeArguments? self
      typeNode lo args
  | _ => fail
where
  /-- `import("source")` with names and type arguments behind it. -/
  importType (lo : Nat) : Parser Node := do
    expectWord "import"
    expectMark .leftParen
    let source ← bracketed (self .type)
    let options ←
      if (← takeMark .comma) && !(← isMark .rightParen) then
        let e ← bracketed (self .assignment)
        let _ ← takeMark .comma
        pure [e]
      else pure []
    expectMark .rightParen
    if ← takeMark .dot then entityName anyName
    let args ← typeArguments? self
    typeNode lo (source :: options ++ args)

/-- A primary type with the array and index brackets behind it. -/
def arrayType (self : Goal → Parser Node) : Parser Node := do
  let lo ← here
  let first ← primaryType self
  extending first fun t => do
    if (← newlineBefore) || !(← isMark .leftBracket) then return none
    bump
    if ← takeMark .rightBracket then return some (← typeNode lo [t])
    let index ← bracketed (self .type)
    expectMark .rightBracket
    return some (← typeNode lo [t, index])

/-- The constraint behind `infer name`. In front of a question mark `extends` belongs to a conditional
type around it, if one is open. -/
def inferConstraint (self : Goal → Parser Node) : Parser (List Node) := do
  let closed := (← get).flags.withoutConditional
  let bound ← attempt do
    expectWord "extends"
    let t ← withFlags (fun f => { f with withoutConditional := true }) (self .type)
    if !closed && (← isMark .question) then fail
    return t
  return bound.toList

/-- Operators in front of a type, then the type. -/
def operatorType (self : Goal → Parser Node) : Nat → Parser Node
  | 0 => fail
  | fuel + 1 => do
    let lo ← here
    if (← isWord "keyof") || (← isWord "unique") || (← isWord "readonly") then
      bump
      let t ← operatorType self fuel
      typeNode lo [t]
    else if ← isWord "infer" then
      bump
      let _ ← identifier
      let bound ← inferConstraint self
      typeNode lo bound
    else arrayType self

/-- Types joined by a mark, which may also stand in front of the first. -/
def joinedTypes (mark : Mark) (one : Parser Node) : Parser Node := do
  let lo ← here
  let _ ← takeMark mark
  let first ← one
  let rest ← many do
    unless ← takeMark mark do return none
    return some (← one)
  if rest.isEmpty then return first
  else typeNode lo (first :: rest)

def unionType (self : Goal → Parser Node) : Parser Node := do
  let fuel := (← get).size + 1
  joinedTypes .pipe (joinedTypes .ampersand (functionOr (operatorType self fuel)))
where
  /-- A function type may also be a part of a union. -/
  functionOr (other : Parser Node) : Parser Node := do
    let lo ← here
    let next ← peek
    let isNew := isWordToken (← token) "new"
    let isAbstractNew := isWordToken (← token) "abstract" && isWordToken next "new"
    if isNew || isAbstractNew then
      bump
      if isAbstractNew then bump
      let head ← functionTypeHead self
      let result ← returnType self
      typeNode lo (head ++ [result])
    else if (← isMark .leftParen) || (← isMark .less) then
      match ← attempt (functionTypeHead self) with
      | some head =>
        let result ← returnType self
        typeNode lo (head ++ [result])
      | none => other
    else other

def anyType (self : Goal → Parser Node) : Parser Node := do
  let lo ← here
  let checked ← unionType self
  if (← get).flags.withoutConditional || (← newlineBefore) || !(← isWord "extends") then
    return checked
  bump
  let bound ← withFlags (fun f => { f with withoutConditional := true }) (self .type)
  expectMark .question
  let yes ← withFlags (fun f => { f with withoutConditional := false }) (self .type)
  expectMark .colon
  let no ← self .type
  typeNode lo [checked, bound, yes, no]

end Localization.Source.Parser
