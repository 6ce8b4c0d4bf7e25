import Localization.Source.Grammar.Expression

/-!
Statements and declarations.
-/

namespace Localization.Source.Parser

/-! ## Variables -/

/-- One declared pattern with its type and initial value. `needsValue` says that a pattern of several
names has to have a value; `inHead` says that this is the head of a loop. -/
def declarator (self : Goal → Parser Node) (isLexical needsValue inHead : Bool) : Parser Node := do
  let lo ← here
  if isLexical && (← isWord "let") then fail
  let target ← self .pattern
  let _ ← takeMark .bang
  let types ← annotation? self
  let target := annotated target types (← get).previousEnd
  if ← takeMark .equal then
    let value ← self .assignment
    node .declarator lo [target, value]
  else
    let isLoop := inHead && ((← isWord "of") || (← isWord "in"))
    let isName := match target.kind with
      | .binding _ => true
      | _ => false
    unless isName || isLoop || !needsValue || (← get).flags.ambient do fail
    node .declarator lo [target]

/-- The declarators behind a keyword, without the end of the statement. A semicolon may stand in the
place of one. -/
def declarators (self : Goal → Parser Node) (keyword : String) (inHead : Bool) :
    Parser (List Node) := do
  if ← isMark .semicolon then return []
  let first ← one
  let rest ← many do
    unless ← takeMark .comma do return none
    if ← isMark .semicolon then return none
    return some (← one)
  return first :: rest
where
  one : Parser Node := declarator self (keyword != "var") (keyword != "const") inHead

/-- Passes tokens up to the end of a statement. -/
def skipToEnd : Parser Unit := do
  let _ ← many do
    if ← canEnd then return none
    bump
    return some ()

/-- The end of a declaration of variables. An expression behind the last declarator, and what follows it
up to the end of the statement, is left out of account. -/
def declarationEnd (self : Goal → Parser Node) : Parser Unit := do
  unless ← canEnd do
    let _ ← self .expression
    skipToEnd
  semicolon

def variableDeclaration (self : Goal → Parser Node) (lo : Nat) (keyword : String) :
    Parser Node := do
  expectWord keyword
  let items ← declarators self keyword false
  declarationEnd self
  node (.variables keyword) lo items

/-- Whether `let` begins a declaration here. -/
def isLetDeclaration : Parser Bool := do
  let next ← peek
  let binds := (identifierOf? next).isSome || next.kind == .mark .leftBracket ||
    next.kind == .mark .leftBrace
  return (← isWord "let") && binds

/-- Whether `using name` or `await using name` stands here. -/
def isUsingDeclaration : Parser Bool :=
  looksLike do
    if ← takeWord "await" then
      if ← newlineBefore then fail
    expectWord "using"
    if (← newlineBefore) || (← isWord "of") || (← isWord "in") then fail
    let _ ← identifier

/-- A `using` declaration without the end of the statement. -/
def usingDeclaration (self : Goal → Parser Node) (lo : Nat) (inHead : Bool) : Parser Node := do
  let _ ← takeWord "await"
  expectWord "using"
  let items ← declarators self "using" inHead
  node .usingDeclaration lo items

/-! ## Declarations of types -/

def declaredName : Parser Node := do
  let span := (← token).span
  let name ← identifier
  return .leaf (.binding name) span

def interfaceRest (self : Goal → Parser Node) (lo : Nat) : Parser Node := do
  let name ← declaredName
  let typeParams ← typeParameters? self
  let parents ← if ← takeWord "extends" then listed (heritage self) else pure []
  let members ← typeMembers self
  node .interface lo (name :: typeParams ++ parents ++ members)

def typeAliasRest (self : Goal → Parser Node) (lo : Nat) : Parser Node := do
  let name ← declaredName
  let typeParams ← typeParameters? self
  expectMark .equal
  let t ← self .type
  semicolon
  node .typeAlias lo (name :: typeParams ++ [t])

def enumMemberName (self : Goal → Parser Node) : Parser Node := do
  let lo ← here
  if ← takeMark .leftBracket then
    let _ ← bracketed (self .expression)
    expectMark .rightBracket
    node .enumMemberName lo []
  else
    let key ← propertyKey self false
    return .leaf .enumMemberName key.span

def enumMember (self : Goal → Parser Node) : Parser Node := do
  let lo ← here
  let name ← enumMemberName self
  let value ← if ← takeMark .equal then pure [← self .assignment] else pure []
  node .enumMember lo (name :: value)

/-- The members of an enumeration behind the opening brace. A comma may be missing behind a value, and
behind a name any token may stand for it. -/
def enumMembers (self : Goal → Parser Node) : Parser (List Node) := do
  let members ← many do
    if ← isMark .rightBrace then return none
    let member ← enumMember self
    unless (← takeMark .comma) || (← isMark .rightBrace) do
      -- the name is the only child of a member without a value
      if member.children.length = 1 then bump
    return some member
  expectMark .rightBrace
  return members

def enumRest (self : Goal → Parser Node) (lo : Nat) : Parser Node := do
  let name ← declaredName
  expectMark .leftBrace
  let members ← bracketed (enumMembers self)
  node .enum lo (name :: members)

def moduleBlock (self : Goal → Parser Node) : Parser Node := do
  let lo ← here
  expectMark .leftBrace
  let items ← bracketed (statementsToBrace (self .moduleItem))
  node .moduleBlock lo items

def namespaceRest (self : Goal → Parser Node) (lo : Nat) : Parser Node := do
  let name ← declaredName
  let _ ← many do
    unless ← takeMark .dot do return none
    let _ ← anyName
    return some ()
  let body ← moduleBlock self
  node .moduleDeclaration lo [name, body]

/-- A module named by a string, from the string on. -/
def externalModuleRest (self : Goal → Parser Node) (lo : Nat) : Parser Node := do
  let name ← leaf .moduleName
  if ← isMark .leftBrace then
    let body ← moduleBlock self
    node .moduleDeclaration lo [name, body]
  else
    semicolon
    node .moduleDeclaration lo [name]

def classDeclaration (self : Goal → Parser Node) (lo : Nat) (marks : List Node) : Parser Node := do
  let (name, c) ← namedClass self lo marks
  if name.isEmpty then fail
  node .classDeclaration lo (name ++ [c])

def functionDeclaration (self : Goal → Parser Node) (lo : Nat) (isAsync : Bool) : Parser Node := do
  let (name, f) ← namedFunction self lo isAsync
  if name.isEmpty then fail
  node .functionDeclaration lo (name ++ [f])

def isStringToken (t : Token) : Bool :=
  match t.kind with
  | .string _ => true
  | _ => false

/-- A declaration that begins with a word that is no keyword elsewhere, if one stands here. -/
def typeDeclaration? (self : Goal → Parser Node) (lo : Nat) (marks : List Node) :
    Parser (Option Node) := do
  let next ← peek
  let nameNext := (identifierOf? next).isSome
  if (← isWord "interface") && nameNext && !next.newlineBefore then
    bump
    return some (← interfaceRest self lo)
  else if (← isWord "type") && nameNext && !next.newlineBefore then
    bump
    return some (← typeAliasRest self lo)
  else if (← isWord "namespace") && nameNext then
    bump
    return some (← namespaceRest self lo)
  else if (← isWord "module") && isStringToken next && !next.newlineBefore then
    bump
    return some (← externalModuleRest self lo)
  else if (← isWord "module") && nameNext && !next.newlineBefore then
    bump
    return some (← namespaceRest self lo)
  else if (← isWord "global") && next.kind == .mark .leftBrace then
    bump
    let body ← moduleBlock self
    return some (← node .moduleDeclaration lo [body])
  else if (← isWord "enum") && nameNext then
    bump
    return some (← enumRest self lo)
  else if (← isWord "const") && isWordToken next "enum" then
    bump
    bump
    return some (← enumRest self lo)
  else if (← isWord "abstract") && isWordToken next "class" && !next.newlineBefore then
    bump
    return some (← classDeclaration self lo marks)
  else return none

/-- The words that can follow `declare`. -/
def declarable : List String :=
  ["function", "class", "const", "var", "let", "enum", "global", "namespace", "module", "type",
    "interface", "abstract", "async", "using"]

/-- A declaration that is not an import or export, if one stands here. -/
def declaration? (self : Goal → Parser Node) (lo : Nat) (marks : List Node) :
    Parser (Option Node) := do
  match ← typeDeclaration? self lo marks with
  | some d => return some d
  | none =>
    let next ← peek
    if ← isWord "function" then return some (← functionDeclaration self lo false)
    else if (← isWord "async") && isWordToken next "function" && !next.newlineBefore then
      bump
      return some (← functionDeclaration self lo true)
    else if ← isWord "class" then return some (← classDeclaration self lo marks)
    else if ← isWord "var" then return some (← variableDeclaration self lo "var")
    else if ← isWord "const" then return some (← variableDeclaration self lo "const")
    else if ← isLetDeclaration then return some (← variableDeclaration self lo "let")
    else if ← isUsingDeclaration then
      let d ← usingDeclaration self lo false
      semicolon
      return some (← node .usingDeclaration lo d.children)
    else return none

/-- A declaration, perhaps with `declare` in front of it, if one stands here. -/
def anyDeclaration? (self : Goal → Parser Node) (lo : Nat) (marks : List Node) :
    Parser (Option Node) := do
  let next ← peek
  if (← isWord "declare") && (nameOf? next).any declarable.contains then
    let found ← attempt (do
      bump
      match ← withFlags (fun f => { f with ambient := true }) (declaration? self lo marks) with
      | some d => return d
      | none => fail)
    match found with
    | some d => return some d
    | none => declaration? self lo marks
  else declaration? self lo marks

/-! ## Statements -/

/-- A label or an expression as a statement. An operator may follow an expression that does not take it
as its own; then no semicolon belongs to the statement. -/
def expressionStatement (self : Goal → Parser Node) (lo : Nat) : Parser Node := do
  let inner ← here
  if (← isIdentifier) && (← peek).kind == .mark .colon then
    bump
    bump
    let body ← self (.statement false)
    node .labeled lo [body]
  else
    let e ← self .expression
    if ← canEnd then
      semicolon
      node .expressionStatement lo [e]
    else
      let c ← get
      match c.token.kind, operator? c with
      | .mark _, some (.binary _ _, _) =>
        let all ← binaryRest self inner e
        node .expressionStatement lo [all]
      | _, _ => fail

def condition (self : Goal → Parser Node) : Parser Node := do
  expectMark .leftParen
  let e ← bracketed (self .expression)
  expectMark .rightParen
  return e

/-- The head of a loop `for`, from its opening parenthesis to its closing one: the kind of loop and
its parts. -/
def forHead (self : Goal → Parser Node) (isAwait : Bool) : Parser (Kind × List Node) := do
  expectMark .leftParen
  let head ← bracketed (do
    if (← isMark .semicolon) && !isAwait then counting []
    else
      let first ← withFlags (fun f => { f with withoutIn := true }) start
      if ← takeWord "of" then
        let values ← self .assignment
        return (Kind.forOf, [first, values])
      else if !isAwait && (← takeWord "in") then
        let values ← self .expression
        return (Kind.forIn, [first, values])
      else if isAwait then fail
      else counting [first])
  expectMark .rightParen
  return head
where
  start : Parser Node := do
    let lo ← here
    if (← isWord "var") || (← isWord "const") || (← isLetDeclaration) then
      let keyword ← anyName
      let items ← if ← lacksName then pure [] else declarators self keyword true
      node (.variables keyword) lo items
    else if ← isUsingDeclaration then usingDeclaration self lo true
    else self .expression
  /-- Whether the name of the variable is missing. -/
  lacksName : Parser Bool := do
    unless (← isWord "of") || (← isWord "in") do return false
    looksLike do
      bump
      let _ ← self .assignment
      expectMark .rightParen
  counting (first : List Node) : Parser (Kind × List Node) := do
    expectMark .semicolon
    let test ← if ← isMark .semicolon then pure [] else pure [← self .expression]
    expectMark .semicolon
    let next ← if ← isMark .rightParen then pure [] else pure [← self .expression]
    return (Kind.forStatement, first ++ test ++ next)

/-- One case of a switch, and whether it is the default. -/
def switchCase (self : Goal → Parser Node) : Parser (Node × Bool) := do
  let lo ← here
  let isDefault ← takeWord "default"
  let test ←
    if isDefault then pure []
    else
      expectWord "case"
      pure [← self .expression]
  expectMark .colon
  let body ← many do
    if (← isWord "case") || (← isWord "default") || (← isMark .rightBrace) then return none
    return some (← self (.statement true))
  return (← node .switchCase lo (test ++ body), isDefault)

def switchStatement (self : Goal → Parser Node) (lo : Nat) : Parser Node := do
  expectWord "switch"
  let subject ← condition self
  expectMark .leftBrace
  let cases ← bracketed (many do
    if ← isMark .rightBrace then return none
    return some (← switchCase self))
  expectMark .rightBrace
  if 1 < (cases.filter Prod.snd).length then fail
  node .switchStatement lo (subject :: cases.map Prod.fst)

def handler? (self : Goal → Parser Node) : Parser (List Node) := do
  let lo ← here
  unless ← takeWord "catch" do return []
  let param ←
    if ← takeMark .leftParen then
      let target ← bracketed (self .pattern)
      let types ← annotation? self
      expectMark .rightParen
      pure [annotated target types target.span.hi]
    else pure []
  let inner ← self .block
  return [← node .catchClause lo (param ++ [inner])]

def finalizer? (self : Goal → Parser Node) : Parser (List Node) := do
  if ← takeWord "finally" then return [← self .block] else return []

def tryStatement (self : Goal → Parser Node) (lo : Nat) : Parser Node := do
  expectWord "try"
  let body ← self .block
  let handler ← handler? self
  let finalizer ← finalizer? self
  node .tryStatement lo (body :: handler ++ finalizer)

/-- A handler or finalizer without a `try` is passed; its keyword stands for it. -/
def strayHandler (self : Goal → Parser Node) : Parser Node := do
  let span := (← token).span
  let _ ← handler? self
  let _ ← finalizer? self
  return .leaf .expressionStatement span

/-- A statement that begins with a keyword, if one stands here. -/
def keywordStatement? (self : Goal → Parser Node) (lo : Nat) : Parser (Option Node) := do
  let body := self (.statement false)
  match (← token).kind with
  | .name "if" false =>
    bump
    let test ← condition self
    let yes ← body
    let no ← if ← takeWord "else" then pure [← body] else pure []
    return some (← node .ifStatement lo (test :: yes :: no))
  | .name "for" false =>
    bump
    let isAwait ← takeWord "await"
    let (kind, parts) ← forHead self isAwait
    let b ← body
    return some (← node kind lo (parts ++ [b]))
  | .name "while" false =>
    bump
    let test ← condition self
    let b ← body
    return some (← node .whileStatement lo [test, b])
  | .name "do" false =>
    bump
    let b ← body
    expectWord "while"
    let test ← condition self
    let _ ← takeMark .semicolon
    return some (← node .doWhileStatement lo [test, b])
  | .name "return" false =>
    bump
    let value ← if ← canEnd then pure [] else pure [← self .expression]
    semicolon
    return some (← node .returnStatement lo value)
  | .name "break" false => return some (← jump .breakStatement)
  | .name "continue" false => return some (← jump .continueStatement)
  | .name "throw" false =>
    bump
    if ← newlineBefore then fail
    let value ← self .expression
    semicolon
    return some (← node .throwStatement lo [value])
  | .name "try" false => return some (← tryStatement self lo)
  | .name "catch" false | .name "finally" false => return some (← strayHandler self)
  | .name "switch" false => return some (← switchStatement self lo)
  | .name "with" false =>
    bump
    let object ← condition self
    let b ← body
    return some (← node .withStatement lo [object, b])
  | .name "debugger" false =>
    bump
    semicolon
    return some (← node .debuggerStatement lo [])
  | .mark .leftBrace => return some (← self .block)
  | .mark .semicolon =>
    bump
    return some (← node .emptyStatement lo [])
  | _ => return none
where
  /-- `break` or `continue` with its label. -/
  jump (kind : Kind) : Parser Node := do
    bump
    unless ← canEnd do
      let _ ← identifier
    semicolon
    node kind lo []

/-- A statement; `isListed` ones may also be declarations by `let`, `const` or `using`. Others are
accepted anywhere.
Decorators belong to a class; in front of other statements they are passed. -/
def statement (self : Goal → Parser Node) (isListed : Bool) : Parser Node := do
  let lo ← here
  let marks ← decorators self
  let inner ← here
  match ← keywordStatement? self inner with
  | some s => return s
  | none =>
    let next ← peek
    let isAnywhere := (← isWord "function") || (← isWord "class") || (← isWord "var") ||
      ((← isWord "async") && isWordToken next "function")
    let start := if ← isWord "class" then lo else inner
    let found ←
      if isListed || isAnywhere then anyDeclaration? self start marks
      else typeDeclaration? self start marks
    match found with
    | some d => return d
    | none => expressionStatement self lo

end Localization.Source.Parser
