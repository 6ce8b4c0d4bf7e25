import Localization.Source.Location
import Localization.Source.Node
import Localization.Component.Basic

/-!
Occurrences of keys in sources. A key occurs where the lookup function, or a method of its name,
is called with a string in front of its other arguments.
-/

namespace Localization

open Source (Node Kind)

/-- A key in a source, with the default text that stands beside it. -/
structure Occurrence where
  key : String
  default : Option String
  file : String
  line : Nat
  column : Nat
  deriving DecidableEq, Repr, Inhabited

namespace Occurrence

/-- The name of the option that holds a default text. -/
def defaultOption : String := "defaultValue"

/-- Whether a callee is the lookup function or a method of its name. -/
def isLookupCallee (callee : Node) : Bool :=
  match callee.kind, callee.children with
  | .identifier name, _ => name == lookupName
  | .member, [_, property] => property.kind == .keyName lookupName
  | _, _ => false

def arguments (n : Node) : List Node :=
  n.children.filter fun c =>
    match c.kind with
    | .argument _ => true
    | _ => false

/-- The string that an argument is; a spread argument is none. -/
def stringArgument? (argument : Node) : Option String :=
  match argument.kind, argument.children with
  | .argument false, [e] => e.stringValue?
  | _, _ => none

def keyText? (key : Node) : Option String :=
  match key.kind with
  | .keyName name => some name
  | .keyString value => value
  | _ => none

def defaultOfProperty? (property : Node) : Option String :=
  match property.kind, property.children with
  | .keyValue, [key, value] =>
    if keyText? key = some defaultOption then value.stringValue? else none
  | _, _ => none

/-- The first default text in an options object. -/
def defaultOf? (argument : Node) : Option String := do
  let options ← argument.argumentValue?
  if options.kind == .object then options.children.findSome? defaultOfProperty? else none

/-- The key and the default text that a node calls the lookup function with. -/
def keyOfCall? (n : Node) : Option (String × Option String) :=
  match n.kind, n.children with
  | .call, callee :: _ =>
    if isLookupCallee callee then do
      let key ← (arguments n).head? >>= stringArgument?
      if key.isEmpty then none
      else some (key, (arguments n)[1]? >>= defaultOf?)
    else none
  | _, _ => none

def ofNode? (file : String) (source : List Char) (n : Node) : Option Occurrence :=
  (keyOfCall? n).map fun (key, text) =>
    let place := Source.locate source n.span.lo
    ⟨key, text, file, place.line, place.column⟩

/-- The occurrences in a tree, in the order of a walk. -/
def collect (file : String) (source : List Char) (tree : Node) : List Occurrence :=
  tree.walk.filterMap (ofNode? file source)

end Occurrence

end Localization
