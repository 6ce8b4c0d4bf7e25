import Localization.Source.Grammar.Statement
import Localization.Tree.Path

/-!
Modules: imports, exports and the reader of a whole source. What the name of a file says about its
language decides whether elements may stand in it. Main definitions: `parseModule`, `parseFile`.
-/

namespace Localization.Source

namespace Parser

/-! ## Imports -/

/-- A name of an import or export: an identifier, a keyword or a string. -/
def moduleExportName : Parser (Option String) := do
  match (← token).kind with
  | .string value =>
    bump
    return value
  | _ => return some (← anyName)

def importSpecifier : Parser Node := do
  let lo ← here
  match ← attempt typed with
  | some (imported, localName) => node (.importNamed imported localName true) lo []
  | none =>
    let isName := (identifierOf? (← token)).isSome
    let imported ← moduleExportName
    if ← takeWord "as" then
      let localName ← identifier
      node (.importNamed imported localName false) lo []
    else if isName then node (.importNamed imported (imported.getD "") false) lo []
    else fail
where
  /-- A name behind the word `type`. -/
  typed : Parser (Option String × String) := do
    expectWord "type"
    let isName := (identifierOf? (← token)).isSome
    let imported ← moduleExportName
    let names ←
      if ← takeWord "as" then
        let localName ← identifier
        pure (imported, localName)
      else if isName then pure (imported, imported.getD "")
      else fail
    unless (← isMark .comma) || (← isMark .rightBrace) do fail
    return names

/-- The source of an import or export, with its attributes. -/
def moduleSource (self : Goal → Parser Node) : Parser (Option String × List Node) := do
  match (← token).kind with
  | .string value =>
    let source ← leaf .moduleName
    let withWord := (← isWord "with") || ((← isWord "assert") && !(← newlineBefore))
    if withWord then
      bump
      requireMark .leftBrace
      let attributes ← primary self
      return (value, [source, attributes])
    else return (value, [source])
  | _ => fail

/-- An import `name = …` from the word `import` on, if one stands here. -/
def importEquals? (lo : Nat) : Parser (Option Node) := do
  match ← attempt head with
  | none => return none
  | some name =>
    if (← isWord "require") && (← peek).kind == .mark .leftParen then
      bump
      bump
      unless isStringToken (← token) do fail
      bump
      expectMark .rightParen
    else entityName identifier
    semicolon
    return some (← node .importEquals lo [name])
where
  /-- Everything up to the equals sign; gives the name in front of it. -/
  head : Parser Node := do
    expectWord "import"
    let _ ← attempt (do
      expectWord "type"
      unless ← isIdentifier do fail)
    let name ← declaredName
    expectMark .equal
    return name

def importNames : Parser (List Node) := do
  if ← takeMark .leftBrace then bracketed (commaList .rightBrace importSpecifier)
  else
    let lo ← here
    expectMark .star
    expectWord "as"
    let name ← identifier
    return [← node (.importNamespace name) lo []]

/-- What stands between `import` and `from`. -/
def importClause : Parser (List Node) := do
  if (← isMark .leftBrace) || (← isMark .star) then importNames
  else
    let lo ← here
    let name ← identifier
    let first ← node (.importDefault name) lo []
    if ← takeMark .comma then return first :: (← importNames)
    else return [first]

def importedNames : Parser (List Node) := do
  let names ← importClause
  expectWord "from"
  return names

def importItem (self : Goal → Parser Node) (lo : Nat) : Parser Node := do
  match ← importEquals? lo with
  | some n => return n
  | none =>
    expectWord "import"
    if isStringToken (← token) then finish false []
    else
      let typeOnly ← isWord "type"
      let behindWord ← attempt do
        unless (← takeWord "type") || (← takeWord "defer") || (← takeWord "source") do fail
        importedNames
      match behindWord with
      | some names => finish typeOnly names
      | none => finish false (← importedNames)
where
  /-- The source and the end of the import. -/
  finish (typeOnly : Bool) (names : List Node) : Parser Node := do
    let (source, parts) ← moduleSource self
    semicolon
    node (.importDeclaration typeOnly source) lo (names ++ parts)

/-! ## Exports -/

def exportSpecifier : Parser Unit := do
  match ← attempt (do expectWord "type"; plain) with
  | some _ => return ()
  | none => plain
where
  plain : Parser Unit := do
    let _ ← moduleExportName
    if ← takeWord "as" then
      let _ ← moduleExportName
    unless (← isMark .comma) || (← isMark .rightBrace) do fail

/-- An export of names, or of everything from another module. -/
def exportNames (self : Goal → Parser Node) (lo : Nat) : Parser Node := do
  if ← takeMark .star then
    let named ← takeWord "as"
    if named then
      let _ ← moduleExportName
    expectWord "from"
    let (_, parts) ← moduleSource self
    semicolon
    node (if named then .exportNamed else .exportAll) lo parts
  else
    expectMark .leftBrace
    let _ ← bracketed (commaList .rightBrace exportSpecifier)
    if ← takeWord "from" then
      let (_, parts) ← moduleSource self
      semicolon
      node .exportNamed lo parts
    else
      semicolon
      node .exportNamed lo []

/-- What is exported by `export default`, behind these words. -/
def exportDefault (self : Goal → Parser Node) (lo : Nat) (marks : List Node) : Parser Node := do
  let more ← decorators self
  unless marks.isEmpty || more.isEmpty do fail
  let marks := marks ++ more
  let declLo ← here
  let next ← peek
  if (← isWord "class") || ((← isWord "abstract") && isWordToken next "class") then
    let _ ← takeWord "abstract"
    let (name, c) ← namedClass self declLo marks
    let d ← node .classExpression declLo (name ++ [c])
    node .exportDefaultDeclaration lo [d]
  else if (← isWord "function") ||
      ((← isWord "async") && isWordToken next "function" && !next.newlineBefore) then
    let isAsync ← takeWord "async"
    let (name, f) ← namedFunction self declLo isAsync
    let d ← node .functionExpression declLo (name ++ [f])
    node .exportDefaultDeclaration lo [d]
  else if (← isWord "interface") && (identifierOf? next).isSome then
    bump
    let d ← interfaceRest self declLo
    node .exportDefaultDeclaration lo [d]
  else
    let e ← self .assignment
    semicolon
    node .exportDefaultExpression lo [e]

def exportItem (self : Goal → Parser Node) (lo : Nat) (marks : List Node) : Parser Node := do
  expectWord "export"
  let next ← peek
  if ← takeWord "default" then exportDefault self lo marks
  else if ← takeMark .equal then
    let e ← self .expression
    semicolon
    node .exportAssignment lo [e]
  else if (← isWord "as") && isWordToken next "namespace" then
    bump
    bump
    let _ ← identifier
    semicolon
    node .namespaceExport lo []
  else if (← isMark .star) || (← isMark .leftBrace) then exportNames self lo
  else if (← isWord "type") && (next.kind == .mark .star || next.kind == .mark .leftBrace) then
    bump
    exportNames self lo
  else
    match ← importEquals? lo with
    | some n => return n
    | none =>
      let more ← decorators self
      unless marks.isEmpty || more.isEmpty do fail
      let declLo ← here
      match ← anyDeclaration? self declLo (marks ++ more) with
      | some d => node .exportDeclaration lo [d]
      | none => fail

/-! ## Modules -/

def moduleItem (self : Goal → Parser Node) : Parser Node := do
  let lo ← here
  let next ← peek
  if (← isWord "import") && !(next.kind == .mark .leftParen || next.kind == .mark .dot) then
    importItem self lo
  else if ← isWord "export" then exportItem self lo []
  else if ← isMark .at then
    let marked ← attempt do
      let marks ← decorators self
      unless ← isWord "export" do fail
      return marks
    match marked with
    | some marks => exportItem self (← here) marks
    | none => self (.statement true)
  else self (.statement true)

/-- The reader of every construct, to a depth of nested constructs. -/
def construct : Nat → Goal → Parser Node
  | 0, _ => fail
  | depth + 1, goal =>
    let self := fun g => construct depth g
    match goal with
    | .expression => sequenceExpression self
    | .assignment => assignmentExpression self
    | .unary => unaryExpression self
    | .leftHandSide => operand self true
    | .callee => operand self false
    | .element => jsxElement self
    | .pattern => bindingPattern self
    | .type => anyType self
    | .block => blockStatement self
    | .statement isListed => statement self isListed
    | .moduleItem => moduleItem self

/-- The items of a module up to the end of the text. -/
def moduleBody (depth : Nat) : Parser Node := do
  let items ← many do
    if (← token).kind == .endOfText then return none
    return some (← construct depth .moduleItem)
  node .module 0 items

end Parser

def byteOrderMark : Char := Char.ofNat 0xFEFF

/-- The place of the first character behind a byte order mark. -/
def textStart (source : List Char) : Place :=
  if source.head? = some byteOrderMark then ⟨source.tail, 3⟩ else ⟨source, 0⟩

/-- The place behind a line that begins with `#!` at the start of a text. -/
def skipInterpreterLine (p : Place) : Place :=
  if p.rest.take 2 = ['#', '!'] then
    let line := p.rest.takeWhile (!isLineTerminator ·)
    ⟨p.rest.drop line.length, p.offset + Text.byteLength line⟩
  else p

/-- Reads a module. A byte order mark in front and a first line that begins with `#!` are skipped;
offsets count them. Nested constructs consume at least one character for every sixteen levels. -/
def parseModule (jsx : Bool) (source : List Char) : Except SyntaxError Node := do
  let start := skipInterpreterLine (textStart source)
  let first := nextToken true start
  let size := Text.byteLength source
  let cursor : Cursor :=
    { token := first.token, start := first.start, after := first.after,
      previousEnd := start.offset, size := size,
      flags :=
        { jsx := jsx, inAsync := false, inGenerator := false, withoutIn := false,
          colonAhead := false, withoutConditional := false, ambient := false } }
  let (tree, _) ← (Parser.moduleBody (16 * (size + 4))).run cursor
  return tree

/-! ## Files -/

/-- Whether elements may stand in a file. Files named `.ts`, `.mts` or `.cts` have none, so that `<` can
begin type parameters and type assertions there. -/
def allowsElements (path : String) : Bool :=
  match Path.extension? path with
  | some ext => !(ext == "ts" || ext == "mts" || ext == "cts")
  | none => true

def parseFile (path : String) (source : List Char) : Except SyntaxError Node :=
  parseModule (allowsElements path) source

end Localization.Source
