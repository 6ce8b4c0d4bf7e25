import Localization.Component.Basic
import Localization.Component.Classifier
import Localization.Edit.Basic
import Localization.Key.Generator
import Localization.Source.Location
import Localization.Text.Line
import Localization.Text.Quoted

/-!
Texts in a component and the calls that take their place. Strings in types, strings that are already
translated, and statements that consist of a string are left alone.
-/

namespace Localization

open Source (Node Kind)

/-- Where a text stands; this decides what is written in its place. -/
inductive LiteralSite where
  /-- In an expression: `t("key")`. -/
  | expression
  /-- The value of an attribute: the call in braces. -/
  | attribute
  /-- The key of a property, which becomes computed: the call in brackets. -/
  | propertyKey
  /-- Between tags: the call in braces. -/
  | elementText
  deriving DecidableEq, Repr, Inhabited

/-- A call as it is written at a site. -/
def LiteralSite.wrap (site : LiteralSite) (call : String) : String :=
  match site with
  | .expression => call
  | .attribute | .elementText => "\x7b" ++ call ++ "\x7d"
  | .propertyKey => "[" ++ call ++ "]"

/-- A text that may be replaced. -/
structure Literal where
  text : String
  site : LiteralSite
  /-- Where its line and column are counted. -/
  offset : Nat
  /-- The bytes to be replaced. -/
  start : Nat
  stop : Nat
  deriving DecidableEq, Repr, Inhabited

namespace Literal

def ofString (site : LiteralSite) (span : Source.Span) (value : String) : Literal :=
  ⟨value, site, span.lo, span.lo, span.hi⟩

/-- The literal that the text of an element is. White space at its ends is kept, so the replaced bytes
are those of the written text without it. -/
def ofElementText? (source : List Char) (span : Source.Span) (value : String) : Option Literal :=
  let text := Text.trimString value
  let raw := Text.sliceBytes source span.lo span.hi
  let start := span.lo + (Text.byteLength raw - Text.byteLength (Text.trimLeft raw))
  let stop := span.hi - (Text.byteLength raw - Text.byteLength (Text.trimRight raw))
  if text.isEmpty || stop ≤ start then none
  else some ⟨text, .elementText, span.lo, start, stop⟩

/-- The literal that a node is. A string as the key of a property counts only if it has Hangul. -/
def ofNode? (source : List Char) (n : Node) : Option Literal :=
  match n.kind with
  | .string (some value) => some (ofString .expression n.span value)
  | .jsxString value => some (ofString .attribute n.span value)
  | .keyString (some value) =>
    if Text.containsHangul value then some (ofString .propertyKey n.span value) else none
  | .jsxText value => ofElementText? source n.span value
  | _ => none

/-- Whether a node is a call of the lookup function by its name. -/
def isLookupCall (kind : Kind) (children : List Node) : Bool :=
  match kind, children with
  | .call, callee :: _ => callee.kind == .identifier lookupName
  | _, _ => false

def isStringArgument (kind : Kind) (children : List Node) : Bool :=
  match kind, children with
  | .argument _, [e] => e.isString
  | _, _ => false

mutual

/-- The literals in a node, in the order of a walk. `translated` says that the node is a part of a call
of the lookup function. -/
def collect (source : List Char) (translated : Bool) : Node → List Literal
  | .mk kind span children =>
    match ofNode? source (.mk kind span children) with
    | some literal => [literal]
    | none =>
      if kind == .type then []
      -- a directive, or a string whose value nobody uses
      else if kind == .expressionStatement && children.any Node.isString then []
      else if translated && isStringArgument kind children then []
      else collectAll source (isLookupCall kind children) children

def collectAll (source : List Char) (translated : Bool) : List Node → List Literal
  | [] => []
  | n :: rest => collect source translated n ++ collectAll source translated rest

end

end Literal

structure Replacement where
  text : String
  key : String
  site : LiteralSite
  line : Nat
  column : Nat
  deriving DecidableEq, Repr, Inhabited

def lookupCall (key : String) : String :=
  lookupName ++ "(" ++ Text.Quoted.encode key ++ ")"

/-- Literals with the keys chosen for them. -/
def assignKeys (generator : KeyGenerator) (keys : KeyMap) :
    List Literal → List (Literal × String) × KeyMap
  | [] => ([], keys)
  | literal :: rest =>
    let (key, keys) := generator.keyFor literal.text keys
    let (others, keys) := assignKeys generator keys rest
    ((literal, key) :: others, keys)

def replacementEdit (literal : Literal) (key : String) : Edit :=
  ⟨literal.start, literal.stop, literal.site.wrap (lookupCall key)⟩

def replacementOf (source : List Char) (literal : Literal) (key : String) : Replacement :=
  let place := Source.locate source literal.offset
  ⟨literal.text, key, literal.site, place.line, place.column⟩

end Localization
