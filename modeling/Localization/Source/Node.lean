/-!
Syntax trees of a source module. A node has a kind, the bytes it was read from, and its children in
the order in which a walk visits them: an enclosing construct before its parts, and the parts in the
order that the kind's comment gives. Names and literal values are stored in the kind.
-/

namespace Localization.Source

/-- The bytes from `lo` up to `hi`. -/
structure Span where
  lo : Nat
  hi : Nat
  deriving DecidableEq, Repr, Inhabited

/-- What a node stands for. -/
inductive Kind where
  -- Names and values
  | identifier (name : String)
  | privateName (name : String)
  /-- A string in expression position; it has no value when it holds half of a surrogate pair. -/
  | string (value : Option String)
  /-- A number, big integer, boolean, null or regular expression. -/
  | literal
  | this
  | superKeyword
  | importKeyword
  /-- `new.target` or `import.meta`. -/
  | metaProperty
  | templateText
  -- Property keys
  | keyName (name : String)
  | keyString (value : Option String)
  | keyNumber
  /-- `[expression]`. -/
  | keyComputed
  -- Expressions
  /-- Elements; a left-out element is a `hole`. -/
  | array
  | hole
  /-- Properties. -/
  | object
  | spread
  /-- A property given by its name alone. -/
  | shorthand
  /-- Key, value. -/
  | keyValue
  /-- Name, default: only meaningful as a pattern. -/
  | defaultedShorthand
  /-- Key, body. -/
  | getter
  /-- Key, parameter, body. -/
  | setter
  /-- Key, function. -/
  | method
  /-- Name if any, function. -/
  | functionExpression
  /-- Parameters, decorators, body if any, types. -/
  | function (isAsync isGenerator : Bool)
  /-- Parameters, body, types. -/
  | arrow (isAsync : Bool)
  /-- A parameter of a function: decorators, pattern. -/
  | parameter
  /-- Name if any, class. -/
  | classExpression
  /-- Decorators, members, superclass if any, types. -/
  | classBody
  /-- Key, parameters, body if any. -/
  | constructor
  /-- Key, function. -/
  | classMethod
  /-- Key, value if any, type if any, decorators. -/
  | classProperty
  /-- Parameters and type of an index signature of a class. -/
  | classIndex
  | staticBlock
  | emptyMember
  | decorator
  | unary
  | update
  | binary
  /-- Target, value. -/
  | assign
  /-- Test, then, else. -/
  | conditional
  | sequence
  | paren
  /-- Object, property. -/
  | member
  /-- `super`, property. -/
  | superMember
  /-- A member or call that is part of an optional chain. -/
  | optionalChain
  /-- Callee, arguments, type arguments. -/
  | call
  /-- Callee, arguments, type arguments; the call of an optional chain. -/
  | chainCall
  /-- Callee, arguments, type arguments. -/
  | newCall
  | argument (isSpread : Bool)
  /-- Expressions, texts. -/
  | template
  /-- Tag, type arguments, template. -/
  | taggedTemplate
  | yieldExpression
  | awaitExpression
  /-- Expression, type. -/
  | asExpression
  | satisfiesExpression
  | typeAssertion
  | nonNull
  | constAssertion
  | instantiation
  -- Elements
  /-- Opening tag, children, closing tag if any. -/
  | jsxElement
  | jsxFragment
  /-- Name, attributes, type arguments. -/
  | jsxOpening
  | jsxClosing
  | jsxName
  /-- Name, value if any. -/
  | jsxAttribute
  | jsxString (value : String)
  | jsxSpreadAttribute
  /-- The expression if any. -/
  | jsxContainer
  | jsxEmpty
  | jsxSpreadChild
  | jsxText (value : String)
  -- Patterns
  /-- A bound name, with its type if any. -/
  | binding (name : String)
  /-- Elements, type if any. -/
  | arrayPattern
  /-- Properties, type if any. -/
  | objectPattern
  /-- Key, pattern. -/
  | keyPattern
  /-- Bound name, default if any. -/
  | shorthandPattern
  /-- Pattern, default. -/
  | defaultPattern
  | restPattern
  -- Statements
  | block
  | expressionStatement
  | emptyStatement
  | debuggerStatement
  | withStatement
  | returnStatement
  | labeled
  | breakStatement
  | continueStatement
  | ifStatement
  | switchStatement
  | switchCase
  | throwStatement
  /-- Block, handler, finalizer. -/
  | tryStatement
  | catchClause
  | whileStatement
  /-- Test, body. -/
  | doWhileStatement
  | forStatement
  | forIn
  | forOf
  -- Declarations
  | variables (keyword : String)
  | usingDeclaration
  /-- Pattern, initial value if any. -/
  | declarator
  /-- Name, function. -/
  | functionDeclaration
  /-- Name, class. -/
  | classDeclaration
  /-- Name, type parameters, extended types, members. -/
  | interface
  /-- A property of an interface or a type literal: key expression, type if any. -/
  | signature
  | heritage
  | typeAlias
  /-- Name, members. -/
  | enum
  | enumMember
  | enumMemberName
  /-- Name, body if any. -/
  | moduleDeclaration
  | moduleBlock
  -- Module items
  /-- Specifiers, source, attributes. -/
  | importDeclaration (typeOnly : Bool) (source : Option String)
  | importDefault (localName : String)
  | importNamespace (localName : String)
  | importNamed (imported : Option String) (localName : String) (typeOnly : Bool)
  | exportDeclaration
  | exportNamed
  | exportDefaultDeclaration
  | exportDefaultExpression
  | exportAll
  /-- Name. -/
  | importEquals
  | exportAssignment
  | namespaceExport
  | moduleName
  -- Types
  /-- Any type, type annotation, type parameter list or type argument list. -/
  | type
  /-- The whole module. -/
  | module
  deriving DecidableEq, Repr, Inhabited

inductive Node where
  | mk (kind : Kind) (span : Span) (children : List Node)
  deriving Repr, Inhabited

namespace Node

def kind : Node → Kind
  | mk kind _ _ => kind

def span : Node → Span
  | mk _ span _ => span

def children : Node → List Node
  | mk _ _ children => children

def leaf (kind : Kind) (span : Span) : Node :=
  mk kind span []

mutual

/-- The node and everything below it, in the order of a walk. -/
def walk : Node → List Node
  | mk kind span children => mk kind span children :: walkAll children

def walkAll : List Node → List Node
  | [] => []
  | n :: rest => walk n ++ walkAll rest

end

def stringValue? (n : Node) : Option String :=
  match n.kind with
  | .string value => value
  | _ => none

def isString (n : Node) : Bool :=
  match n.kind with
  | .string _ => true
  | _ => false

def argumentValue? (n : Node) : Option Node :=
  match n.kind with
  | .argument _ => n.children.head?
  | _ => none

/-- A statement that consists of a string alone, such as a directive. -/
def isStringStatement (n : Node) : Bool :=
  n.kind == .expressionStatement && n.children.any isString

def parameters (n : Node) : List Node :=
  n.children.filter fun c => c.kind == .parameter

/-- The body of a function or arrow: its block or, for an arrow, its expression. -/
def body? (n : Node) : Option Node :=
  n.children.find? fun c => !(c.kind == .parameter || c.kind == .decorator || c.kind == .type)

def unparenthesized : Node → Node
  | mk .paren _ [inner] => inner.unparenthesized
  | n => n

end Node

end Localization.Source
