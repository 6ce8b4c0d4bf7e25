import Localization.Source.Grammar.Function
import Localization.Source.Grammar.Jsx

/-!
Expressions.
-/

namespace Localization.Source.Parser

/-! ## Operators -/

/-- What an operator between two operands does. -/
inductive Operator where
  /-- The larger `precedence` binds tighter. -/
  | binary (precedence : Nat) (fromRight : Bool)
  /-- Type operators such as `as`. -/
  | typed
  | assign
  deriving DecidableEq, Repr

/-- An operator that begins with `<`, `>` or `/`, and its number of characters. -/
def longOperator : List Char → Option (Operator × Nat)
  | '<' :: '<' :: '=' :: _ => some (.assign, 3)
  | '<' :: '<' :: _ => some (.binary 8 false, 2)
  | '<' :: '=' :: _ => some (.binary 7 false, 2)
  | '<' :: _ => some (.binary 7 false, 1)
  | '>' :: '>' :: '>' :: '=' :: _ => some (.assign, 4)
  | '>' :: '>' :: '>' :: _ => some (.binary 8 false, 3)
  | '>' :: '>' :: '=' :: _ => some (.assign, 3)
  | '>' :: '>' :: _ => some (.binary 8 false, 2)
  | '>' :: '=' :: _ => some (.binary 7 false, 2)
  | '>' :: _ => some (.binary 7 false, 1)
  | '/' :: '=' :: _ => some (.assign, 2)
  | '/' :: _ => some (.binary 10 false, 1)
  | _ => none

def markOperator? : Mark → Option Operator
  | .nullish | .orOr => some (.binary 1 false)
  | .andAnd => some (.binary 2 false)
  | .pipe => some (.binary 3 false)
  | .caret => some (.binary 4 false)
  | .ampersand => some (.binary 5 false)
  | .equalEqual | .equalEqualEqual | .bangEqual | .bangEqualEqual => some (.binary 6 false)
  | .plus | .minus => some (.binary 9 false)
  | .star | .percent => some (.binary 10 false)
  | .starStar => some (.binary 11 true)
  | .equal | .plusEqual | .minusEqual | .starEqual | .starStarEqual | .percentEqual
  | .ampersandEqual | .pipeEqual | .caretEqual | .andAndEqual | .orOrEqual | .nullishEqual =>
    some .assign
  | _ => none

/-- The operator at the current token and the place behind it. -/
def operator? (c : Cursor) : Option (Operator × Place) :=
  match c.token.kind with
  | .mark .less | .mark .greater | .mark .slash =>
    (longOperator c.start).map fun (op, length) =>
      (op, Place.advance ⟨c.start, c.token.span.lo⟩ length)
  | .mark m => (markOperator? m).map fun op => (op, c.after)
  | .name "instanceof" false => some (.binary 7 false, c.after)
  | .name "in" false => if c.flags.withoutIn then none else some (.binary 7 false, c.after)
  | .name "as" false | .name "satisfies" false =>
    if c.token.newlineBefore then none else some (.typed, c.after)
  | _ => none

/-! ## Parts of expressions -/

def argument (self : Goal → Parser Node) : Parser Node := do
  let lo ← here
  let isSpread ← takeMark .ellipsis
  let e ← self .assignment
  node (.argument isSpread) lo [e]

def callArguments (self : Goal → Parser Node) : Parser (List Node) := do
  expectMark .leftParen
  bracketed (commaList .rightParen (argument self))

def templateNode (self : Goal → Parser Node) (tagged : Bool) : Parser Node := do
  let lo ← here
  requireMark .backtick
  let (values, texts) ← template tagged (self .expression)
  node .template lo (values ++ texts)

def objectProperty (self : Goal → Parser Node) : Parser Node := do
  let lo ← here
  if ← takeMark .ellipsis then
    let e ← self .assignment
    node .spread lo [e]
  else
    let next ← peek
    let isAsync := (← isWord "async") && !next.newlineBefore &&
      (beginsKey next || next.kind == .mark .star)
    if isAsync then bump
    let isGenerator ← takeMark .star
    let next ← peek
    -- `get` and `set` may be keys themselves
    let isGetter := (← isWord "get") && beginsKey next
    let isSetter := (← isWord "set") && beginsKey next
    if (isGetter || isSetter) && !(isAsync || isGenerator) then
      bump
      let key ← propertyKey self false
      withFlags (functionFlags false false) do
        let ps ← parameters self
        let types ← returnAnnotation? self
        let body ← functionBody? self
        if isGetter then node .getter lo (key :: types ++ body)
        else node .setter lo (key :: ps ++ body)
    else
      let functionLo ← here
      let shorthand := nameOf? (← token)
      let key ← propertyKey self false
      if (← isMark .leftParen) || (← isMark .less) then
        let f ← functionRest self functionLo [] isAsync isGenerator
        node .method lo [key, f]
      else if isAsync || isGenerator then fail
      else if ← takeMark .colon then
        let value ← self .assignment
        node .keyValue lo [key, value]
      else if shorthand.isNone then fail
      else if ← takeMark .equal then
        let value ← self .assignment
        node .defaultedShorthand lo [key, value]
      else node .shorthand lo []

def arrayElement (self : Goal → Parser Node) : Parser Node := do
  if ← isMark .comma then hole
  else argument self

/-- `import(…)` or `import.meta`. -/
def importExpression (self : Goal → Parser Node) : Parser Node := do
  let lo ← here
  expectWord "import"
  let keyword ← node .importKeyword lo []
  if ← takeMark .dot then
    if ← takeWord "meta" then node .metaProperty lo []
    else
      unless (← takeWord "defer") || (← takeWord "source") do fail
      call lo keyword
  else call lo keyword
where
  call (lo : Nat) (keyword : Node) : Parser Node := do
    let args ← callArguments self
    if args.isEmpty || 2 < args.length then fail
    node .call lo (keyword :: args)

/-- `super` with the access or call behind it. -/
def superExpression (self : Goal → Parser Node) : Parser Node := do
  let lo ← here
  expectWord "super"
  let keyword ← node .superKeyword lo []
  let keyLo ← here
  if ← takeMark .dot then
    let property ← memberName
    node .superMember lo [keyword, property]
  else if ← takeMark .leftBracket then
    let e ← bracketed (self .expression)
    expectMark .rightBracket
    node .superMember lo [keyword, ← node .keyComputed keyLo [e]]
  else
    let args ← callArguments self
    node .call lo (keyword :: args)
where
  memberName : Parser Node := do
    match (← token).kind with
    | .name text _ => leaf (.keyName text)
    | _ => fail

def memberName : Parser Node := do
  match (← token).kind with
  | .name text _ => leaf (.keyName text)
  | .privateName text => leaf (.privateName text)
  | _ => fail

/-- `new.target`, or `new` with what it creates, which contains no call and no optional chain. -/
def newExpression (self : Goal → Parser Node) : Parser Node := do
  let lo ← here
  expectWord "new"
  if ← takeMark .dot then
    expectWord "target"
    node .metaProperty lo []
  else
    let callee ← self .callee
    if callee.kind == .call || (← isMark .questionDot) then fail
    -- A `<` behind the callee is an operator unless a parenthesis follows the matching `>`.
    let types ←
      if ← isMark .less then
        let found ← attempt (do
          let t ← typeArguments self
          requireMark .leftParen
          return t)
        pure found.toList
      else pure []
    let args ← if ← isMark .leftParen then callArguments self else pure []
    node .newCall lo (callee :: args ++ types)

/-- A regular expression, of which the slash is the current token. -/
def regularExpression : Parser Node := do
  let c ← get
  match scanRegularExpression false false c.start.tail (c.token.span.lo + 1) with
  | none => fail
  | some after =>
    moveTo after
    node .literal c.token.span.lo []

/-- An operand without the accesses and calls behind it. -/
def primary (self : Goal → Parser Node) : Parser Node := do
  let t ← token
  let lo := t.span.lo
  match t.kind with
  | .string value => leaf (.string value)
  | .number | .bigint => leaf .literal
  | .privateName text =>
    let n ← leaf (.privateName text)
    if ← isWord "in" then return n else fail
  | .mark .backtick => templateNode self false
  | .mark .slash => regularExpression
  | .mark .leftParen =>
    bump
    let e ← bracketed (self .expression)
    expectMark .rightParen
    node .paren lo [e]
  | .mark .leftBracket =>
    bump
    let items ← bracketed (commaList .rightBracket (arrayElement self))
    node .array lo items
  | .mark .leftBrace =>
    bump
    let items ← bracketed (commaList .rightBrace (objectProperty self))
    node .object lo items
  | .mark .less =>
    unless (← get).flags.jsx do fail
    let e ← self .element
    bump
    return e
  | .mark .at =>
    let marks ← decorators self
    let (name, c) ← namedClass self lo marks
    node .classExpression lo (name ++ [c])
  | .name text escaped =>
    if escaped then identifierNode lo
    else if text == "this" then leaf .this
    else if text == "null" || text == "true" || text == "false" then leaf .literal
    else if text == "function" then
      let (name, f) ← namedFunction self lo false
      node .functionExpression lo (name ++ [f])
    else if text == "class" then
      let (name, c) ← namedClass self lo []
      node .classExpression lo (name ++ [c])
    else if text == "new" then newExpression self
    else if text == "super" then superExpression self
    else if text == "import" then importExpression self
    else if text == "async" then
      let next ← peek
      if isWordToken next "function" && !next.newlineBefore then
        bump
        let (name, f) ← namedFunction self lo true
        node .functionExpression lo (name ++ [f])
      else identifierNode lo
    else identifierNode lo
  | _ => fail
where
  identifierNode (lo : Nat) : Parser Node := do
    let name ← identifier
    node (.identifier name) lo []

/-! ## Accesses and calls -/

/-- Whether an expression is part of an optional chain that is still open. -/
def isChain (e : Node) : Bool :=
  e.kind == .optionalChain || e.kind == .chainCall

def beginsExpression (t : Token) : Bool :=
  match t.kind with
  | .name text _ => (identifierOf? t).isSome ||
      ["this", "null", "true", "false", "function", "class", "new", "super", "import", "typeof",
        "void", "delete"].contains text
  | .string _ | .number | .bigint | .privateName _ => true
  | .mark m => [Mark.backtick, .slash, .leftParen, .leftBracket, .leftBrace, .less, .at, .plus, .minus,
      .bang, .tilde, .plusPlus, .minusMinus].contains m
  | _ => false

/-- Type arguments that a call, a template or the end of an operand follows. -/
def appliedTypeArguments (self : Goal → Parser Node) (calls : Bool) : Parser Node := do
  let types ← typeArguments self
  let c ← get
  let applied := calls && (c.token.kind == .mark .leftParen || c.token.kind == .mark .backtick)
  let blocked := [Mark.less, .greater, .plus, .minus, .leftParen, .backtick].any
    fun m => c.token.kind == .mark m
  let ended := c.token.newlineBefore || (operator? c).isSome || !(beginsExpression c.token)
  if applied || (!blocked && ended) then return types else fail

/-- What stands behind `?.`. -/
def optionalAccess (self : Goal → Parser Node) (lo : Nat) (e : Node) : Parser Node := do
  let keyLo ← here
  if ← isMark .leftParen then
    let args ← callArguments self
    node .chainCall lo (e :: args)
  else if ← isMark .less then
    let types ← typeArguments self
    let args ← callArguments self
    node .chainCall lo (e :: args ++ [types])
  else if ← takeMark .leftBracket then
    let property ← bracketed (self .expression)
    expectMark .rightBracket
    node .optionalChain lo [e, ← node .keyComputed keyLo [property]]
  else
    let property ← memberName
    node .optionalChain lo [e, property]

/-- One access or call behind an operand, if there is one. -/
def access? (self : Goal → Parser Node) (calls : Bool) (e : Node) : Parser (Option Node) := do
  let lo := e.span.lo
  let accessKind : Kind := if isChain e then .optionalChain else .member
  let callKind : Kind := if isChain e then .chainCall else .call
  match (← token).kind with
  | .mark .dot =>
    bump
    let property ← memberName
    return some (← node accessKind lo [e, property])
  | .mark .questionDot =>
    if calls then
      bump
      return some (← optionalAccess self lo e)
    else return none
  | .mark .leftBracket =>
    let keyLo ← here
    bump
    let property ← bracketed (self .expression)
    expectMark .rightBracket
    return some (← node accessKind lo [e, ← node .keyComputed keyLo [property]])
  | .mark .bang =>
    if ← newlineBefore then return none
    bump
    return some (← node .nonNull lo [e])
  | .mark .leftParen =>
    if calls then
      let args ← callArguments self
      return some (← node callKind lo (e :: args))
    else return none
  | .mark .backtick =>
    let t ← templateNode self true
    return some (← node .taggedTemplate lo [e, t])
  | .mark .less =>
    match ← attempt (appliedTypeArguments self calls) with
    | none => return none
    | some types =>
      if calls && (← isMark .leftParen) then
        let args ← callArguments self
        return some (← node callKind lo (e :: args ++ [types]))
      else if calls && (← isMark .backtick) then
        let t ← templateNode self true
        return some (← node .taggedTemplate lo [e, types, t])
      else return some (← node .instantiation lo [e, types])
  | _ => return none

/-- An operand with the accesses behind it and, where `calls` says so, the calls. -/
def operand (self : Goal → Parser Node) (calls : Bool) : Parser Node := do
  let first ← primary self
  extending first (access? self calls)

/-! ## Operators applied -/

/-- An operand with `++` or `--` behind it on the same line. -/
def postfixExpression (self : Goal → Parser Node) : Parser Node := do
  let lo ← here
  let e ← self .leftHandSide
  if ((← isMark .plusPlus) || (← isMark .minusMinus)) && !(← newlineBefore) then
    bump
    node .update lo [e]
  else return e

/-- `await` and its operand. Outside of an async function the word may be a name. -/
def awaitExpression (self : Goal → Parser Node) : Parser Node := do
  let lo ← here
  bump
  let c ← get
  let isName := !c.flags.inAsync && [Mark.rightParen, .rightBracket, .semicolon, .comma].any
    fun m => c.token.kind == .mark m
  if isName then node (.identifier "await") lo []
  else
    let e ← self .unary
    node .awaitExpression lo [e]

def unaryExpression (self : Goal → Parser Node) : Parser Node := do
  let t ← token
  let lo := t.span.lo
  match t.kind with
  | .mark .plusPlus | .mark .minusMinus =>
    bump
    let e ← self .unary
    node .update lo [e]
  | .mark .plus | .mark .minus | .mark .bang | .mark .tilde
  | .name "typeof" false | .name "void" false | .name "delete" false =>
    bump
    let e ← self .unary
    node .unary lo [e]
  | .name "await" false => awaitExpression self
  | .mark .less =>
    if (← get).flags.jsx then postfixExpression self
    else
      bump
      let type ← bracketed (self .type)
      expectMark .greater
      let e ← self .unary
      node .typeAssertion lo [e, type]
  | _ => postfixExpression self

/-- The operators of at least the given precedence behind an operand, and what they join to it; `right`
reads operands joined by operators of at least a precedence. -/
def joined (self : Goal → Parser Node) (right : Nat → Parser Node) (least lo : Nat) (first : Node) :
    Parser Node :=
  extending first fun left => do
    match operator? (← get) with
    | some (.binary precedence fromRight, after) =>
      if precedence < least then return none
      -- `-a ** b` could be read in two ways and is refused
      if fromRight && (left.kind == .unary || left.kind == .awaitExpression) then fail
      moveTo after
      let second ← right (if fromRight then precedence else precedence + 1)
      return some (← node .binary lo [left, second])
    | some (.typed, after) =>
      if 7 < least then return none
      let isAs ← isWord "as"
      moveTo after
      if isAs && (← takeWord "const") then return some (← node .constAssertion lo [left])
      let type ← self .type
      return some (← node (if isAs then .asExpression else .satisfiesExpression) lo [left, type])
    | _ => return none

def binaryExpression (self : Goal → Parser Node) : Nat → Nat → Parser Node
  | 0, _ => fail
  | fuel + 1, least => do
    let lo ← here
    let first ← unaryExpression self
    joined self (binaryExpression self fuel) least lo first

/-- The binary operators behind an operand, and what they join to it. -/
def binaryRest (self : Goal → Parser Node) (lo : Nat) (first : Node) : Parser Node := do
  let fuel := (← get).size + 1
  joined self (binaryExpression self fuel) 0 lo first

/-- A conditional from behind its test, or the test alone. -/
def conditionalRest (self : Goal → Parser Node) (lo : Nat) (test : Node) : Parser Node := do
  if ← takeMark .question then
    let yes ← withFlags (fun f => { f with withoutIn := false, colonAhead := true })
      (self .assignment)
    expectMark .colon
    let no ← self .assignment
    node .conditional lo [test, yes, no]
  else return test

def conditionalExpression (self : Goal → Parser Node) : Parser Node := do
  let lo ← here
  let fuel := (← get).size + 1
  let test ← binaryExpression self fuel 0
  conditionalRest self lo test

def yieldExpression (self : Goal → Parser Node) : Parser Node := do
  let lo ← here
  expectWord "yield"
  if ← newlineBefore then node .yieldExpression lo []
  else if ← takeMark .star then
    let e ← self .assignment
    node .yieldExpression lo [e]
  else if beginsExpression (← token) then
    let e ← self .assignment
    node .yieldExpression lo [e]
  else node .yieldExpression lo []

/-- Whether an expression names a place for a value. -/
def isPlace (e : Node) : Bool :=
  match e.kind with
  | .identifier _ | .member | .superMember | .optionalChain | .chainCall | .paren | .asExpression
  | .satisfiesExpression | .nonNull | .typeAssertion | .instantiation => true
  | _ => false

/-- Whether a value can be assigned to an expression by an equals sign. -/
def isAssignable (e : Node) : Bool :=
  isPlace e || e.kind == .array || e.kind == .object

mutual

/-- Whether an object or array in front of an equals sign can be read as a pattern: it contains no
method. -/
def isPatternLike : Node → Bool
  | .mk kind _ children =>
    match kind with
    | .getter | .setter | .method => false
    | .object | .array | .keyValue | .argument _ | .spread | .sequence => arePatternLike children
    | _ => true

/-- Whether all of several nodes can be parts of a pattern. -/
def arePatternLike : List Node → Bool
  | [] => true
  | n :: rest => isPatternLike n && arePatternLike rest

end

/-- Expressions in the place of parameters: only names declare something. -/
def looseParameters (e : Node) : List Node :=
  (if e.kind == .sequence then e.children else [e]).map fun item =>
    match item.kind with
    | .identifier name => .mk .parameter item.span [.leaf (.binding name) item.span]
    | _ => .leaf .parameter item.span

def assignmentExpression (self : Goal → Parser Node) : Parser Node := do
  let lo ← here
  let listed := (← isMark .leftParen) || ((← isWord "async") && (← peek).kind == .mark .leftParen)
  match ← arrowFunction? self with
  | some e => if listed && e.body?.any (·.kind == .block) then operatorsBehind lo e else return e
  | none =>
    if (← get).flags.inGenerator && (← isWord "yield") then yieldExpression self
    else
      let left ← conditionalExpression self
      match operator? (← get) with
      | some (.assign, after) =>
        if ← isMark .equal then
          unless isAssignable left && isPatternLike left do fail
        else
          unless isPlace left do fail
        moveTo after
        let right ← self .assignment
        node .assign lo [left, right]
      | _ =>
        if left.kind == .paren && (← isMark .arrow) && !(← newlineBefore) then looseArrow lo left
        else return left
where
  /-- An arrow function whose parameters are no patterns. -/
  looseArrow (lo : Nat) (list : Node) : Parser Node := do
    unless arePatternLike list.children do fail
    bump
    let e ← arrowRest self lo false (list.children.flatMap looseParameters) []
    operatorsBehind lo e
  /-- The marks of binary operators may follow the block of an arrow function with a parameter list. -/
  operatorsBehind (lo : Nat) (e : Node) : Parser Node := do
    let c ← get
    match c.token.kind, operator? c with
    | .mark _, some (.binary _ _, _) =>
      let test ← binaryRest self lo e
      conditionalRest self lo test
    | _, _ => return e

def sequenceExpression (self : Goal → Parser Node) : Parser Node := do
  let lo ← here
  let first ← self .assignment
  let rest ← many do
    unless ← takeMark .comma do return none
    return some (← self .assignment)
  if rest.isEmpty then return first
  else node .sequence lo (first :: rest)

end Localization.Source.Parser
