import Localization.Source.Grammar.Type

/-!
Functions, arrow functions and classes.
-/

namespace Localization.Source.Parser

/-- Statements up to a closing brace, which is passed. A block that reaches the end of the text ends
there. -/
def statementsToBrace (item : Parser Node) : Parser (List Node) := do
  let items ← many do
    if (← isMark .rightBrace) || (← token).kind == .endOfText then return none
    return some (← item)
  let _ ← takeMark .rightBrace
  return items

def blockStatement (self : Goal → Parser Node) : Parser Node := do
  let lo ← here
  expectMark .leftBrace
  let items ← bracketed (statementsToBrace (self (.statement true)))
  node .block lo items

/-- What a function changes for the text inside it. -/
def functionFlags (isAsync isGenerator : Bool) (f : Flags) : Flags :=
  { f with inAsync := isAsync, inGenerator := isGenerator }

/-- The body of a function, or the end of a declaration without one. -/
def functionBody? (self : Goal → Parser Node) : Parser (List Node) := do
  if ← isMark .leftBrace then return [← self .block]
  semicolon
  return []

/-- A function from its type parameters on. -/
def functionRest (self : Goal → Parser Node) (lo : Nat) (marks : List Node)
    (isAsync isGenerator : Bool) : Parser Node :=
  withFlags (functionFlags isAsync isGenerator) do
    let typeParams ← typeParameters? self
    let ps ← parameters self
    let result ← returnAnnotation? self
    let body ← functionBody? self
    node (.function isAsync isGenerator) lo (ps ++ marks ++ body ++ typeParams ++ result)

/-- A function from the word `function` on: its name, if it has one, and the function itself. -/
def namedFunction (self : Goal → Parser Node) (lo : Nat) (isAsync : Bool) :
    Parser (List Node × Node) := do
  expectWord "function"
  let isGenerator ← takeMark .star
  let name ←
    if ← isIdentifier then
      let span := (← token).span
      let text ← identifier
      pure [Node.leaf (.binding text) span]
    else pure []
  let f ← functionRest self lo [] isAsync isGenerator
  return (name, f)

/-! ## Arrow functions -/

/-- The head of an arrow function: parameters and types, up to the arrow, which is passed. `result`
reads what stands between the parameters and the arrow. -/
def arrowHead (isAsync : Bool) (self : Goal → Parser Node) (result : Parser (List Node)) :
    Parser (List Node × List Node) :=
  withFlags (functionFlags isAsync false) do
    let typeParams ← typeParameters? self
    let ps ← parameters self
    let types ← result
    if ← newlineBefore then fail
    expectMark .arrow
    return (ps, typeParams ++ types)

def arrowRest (self : Goal → Parser Node) (lo : Nat) (isAsync : Bool) (ps types : List Node) :
    Parser Node :=
  withFlags (functionFlags isAsync false) do
    let body ← if ← isMark .leftBrace then self .block else self .assignment
    node (.arrow isAsync) lo (ps ++ [body] ++ types)

/-- An arrow function from its parameters on, if one stands here. -/
def arrowFrom? (self : Goal → Parser Node) (lo : Nat) (isAsync : Bool) :
    Parser (Option Node) := do
  let waiting := (← get).flags.colonAhead
  -- In `a ? (b) : c => d` the colon is that of the conditional, unless a further one follows the body.
  let annotated ←
    if waiting then
      attempt do
        let (ps, types) ← arrowHead isAsync self do
          unless ← isMark .colon do fail
          returnAnnotation? self
        let e ← arrowRest self lo isAsync ps types
        unless ← isMark .colon do fail
        return e
    else pure none
  if annotated.isSome then return annotated
  let head := arrowHead isAsync self (if waiting then pure [] else returnAnnotation? self)
  match ← attempt head with
  | some (ps, types) => return some (← arrowRest self lo isAsync ps types)
  | none => return none

/-- The only parameter of an arrow function without parentheses, and the arrow. -/
def soleParameter : Parser Node := do
  let span := (← token).span
  let name ← identifier
  if ← newlineBefore then fail
  expectMark .arrow
  return .mk .parameter span [.leaf (.binding name) span]

/-- Whether `<` begins type parameters where it could also begin an element: a comma, an equals sign or
a constraint follows the first name. -/
def beginsTypeParameters : Parser Bool :=
  looksLike do
    expectMark .less
    let _ ← takeWord "const"
    let _ ← identifier
    unless (← isMark .comma) || (← isMark .equal) do
      expectWord "extends"
      if (← isMark .equal) || (← isMark .greater) || (← isMark .slash) then fail

def arrowFunction? (self : Goal → Parser Node) : Parser (Option Node) := do
  let lo ← here
  let next ← peek
  if (← isWord "async") && !next.newlineBefore then
    if next.kind == .mark .leftParen || next.kind == .mark .less then
      let c ← get
      bump
      match ← arrowFrom? self lo true with
      | some e => return some e
      | none =>
        -- a call of a function that is named `async`
        set c
        return none
    match ← attempt (do bump; soleParameter) with
    | some p => return some (← arrowRest self lo true [p] [])
    | none => pure ()
  if ← isIdentifier then
    match ← attempt soleParameter with
    | some p => return some (← arrowRest self lo false [p] [])
    | none => return none
  else if ← isMark .leftParen then arrowFrom? self lo false
  else if (← isMark .less) && (nameOf? next).isSome then
    if (← get).flags.jsx && !(← beginsTypeParameters) then return none
    return (← attempt (arrowFrom? self lo false)).join
  else return none

/-! ## Classes -/

/-- A word in front of a member that says how it is used, if one of `words` stands here. It is one if a
key or a star follows; `static` may stand on a line of its own. -/
def modifier? (words : List String) : Parser (List String) := do
  match nameOf? (← token) with
  | none => return []
  | some word =>
    let next ← peek
    let follows := beginsKey next || next.kind == .mark .star
    if words.contains word && follows && (word == "static" || !next.newlineBefore) then
      bump
      return [word]
    else return []

def modifiers : Parser (List String) := do
  let a ← modifier? ["declare"]
  let b ← modifier? ["public", "private", "protected"]
  let c ← modifier? ["declare"]
  let d ← modifier? ["static"]
  let e ← modifier? ["declare"]
  let f ← many do
    let words ← modifier? ["abstract", "override", "readonly", "static"]
    if words.isEmpty then return none else return some words
  let g ← modifier? ["accessor"]
  return a ++ b ++ c ++ d ++ e ++ f.flatten ++ g

def isConstructorKey (key : Node) : Bool :=
  key.kind == .keyName "constructor" || key.kind == .keyString (some "constructor")

/-- A property of a class behind its key. -/
def classPropertyRest (self : Goal → Parser Node) (lo : Nat) (marks : List Node) (key : Node) :
    Parser Node := do
  if isConstructorKey key then fail
  let types ← annotation? self
  let value ← if ← takeMark .equal then pure [← self .assignment] else pure []
  semicolon
  node .classProperty lo (key :: value ++ types ++ marks)

/-- A method, constructor or property from its key on. -/
def memberFromKey (self : Goal → Parser Node) (lo : Nat) (marks : List Node)
    (words : List String) (isAsync isGenerator isAccessor : Bool) : Parser Node := do
  let functionLo ← here
  let key ← propertyKey self true
  unless ← takeMark .question do
    let _ ← takeMark .bang
  if (← isMark .leftParen) || (← isMark .less) then
    if words.contains "readonly" || (isConstructorKey key && isAsync) then fail
    let isStatic := words.contains "static"
    if isConstructorKey key && !(isStatic || isGenerator || isAccessor) then
      withFlags (functionFlags false false) do
        let typeParams ← typeParameters? self
        let ps ← parameters self
        let result ← returnAnnotation? self
        let body ← functionBody? self
        node .constructor lo (key :: ps ++ body ++ typeParams ++ result)
    else
      let f ← functionRest self functionLo marks isAsync isGenerator
      node .classMethod lo [key, f]
  else if isAsync || isGenerator || isAccessor then fail
  else classPropertyRest self lo marks key

def classMember (self : Goal → Parser Node) : Parser Node := do
  let lo ← here
  if ← takeMark .semicolon then node .emptyMember lo []
  else
    let marks ← decorators self
    let words ← modifiers
    let next ← peek
    if (← isWord "static") && next.kind == .mark .leftBrace then
      bump
      let body ← withFlags (functionFlags false false) (self .block)
      node .staticBlock lo [body]
    else if ← isIndexSignature then
      let parts ← indexSignature self
      semicolon
      node .classIndex lo parts
    else
      let isAsync := (← isWord "async") && !next.newlineBefore &&
        (beginsKey next || next.kind == .mark .star)
      if isAsync then bump
      let isGenerator ← takeMark .star
      let next ← peek
      let isAccessor := ((← isWord "get") || (← isWord "set")) && beginsKey next
      if isAccessor then bump
      memberFromKey self lo marks words isAsync isGenerator isAccessor

/-- A type named in an `implements` or `extends` clause. -/
def heritage (self : Goal → Parser Node) : Parser Node := do
  let lo ← here
  entityName anyName
  let args ← typeArguments? self
  node .heritage lo args

def listed (item : Parser Node) : Parser (List Node) := do
  let first ← item
  let rest ← many do
    unless ← takeMark .comma do return none
    return some (← item)
  return first :: rest

def superclass (self : Goal → Parser Node) : Parser Node := do
  let lo ← here
  let e ← self .leftHandSide
  let args ← typeArguments? self
  if args.isEmpty then return e else node .instantiation lo (e :: args)

/-- What a class extends and implements. One superclass counts, the first that is named; clauses may be
repeated and may stand in either order. -/
def heritageClauses (self : Goal → Parser Node) : Parser (List Node × List Node) := do
  let supers ←
    if ← takeWord "extends" then
      let first ← superclass self
      if ← takeMark .comma then
        let _ ← listed (heritage self)
      if ← takeWord "extends" then
        let _ ← superclass self
      pure [first]
    else pure []
  let interfaces ← implemented
  let _ ← implemented
  if ← takeWord "extends" then
    let late ← superclass self
    return (if supers.isEmpty then [late] else supers, interfaces)
  else return (supers, interfaces)
where
  implemented : Parser (List Node) := do
    if ← takeWord "implements" then listed (heritage self) else return []

/-- What stands behind the name of a class. A class that reaches the end of the text ends there. -/
def classTail (self : Goal → Parser Node) (lo : Nat) (marks : List Node) : Parser Node := do
  let typeParams ← typeParameters? self
  let (supers, interfaces) ← heritageClauses self
  expectMark .leftBrace
  let members ← bracketed (many do
    if (← isMark .rightBrace) || (← token).kind == .endOfText then return none
    return some (← classMember self))
  let _ ← takeMark .rightBrace
  node .classBody lo (marks ++ members ++ supers ++ typeParams ++ interfaces)

/-- A class from the word `class` on: its name, if it has one, and the class itself. -/
def namedClass (self : Goal → Parser Node) (lo : Nat) (marks : List Node) :
    Parser (List Node × Node) := do
  expectWord "class"
  let name ←
    if (← isIdentifier) && !(← isWord "implements") then
      let span := (← token).span
      let text ← identifier
      pure [Node.leaf (.binding text) span]
    else pure []
  let c ← classTail self lo marks
  return (name, c)

end Localization.Source.Parser
