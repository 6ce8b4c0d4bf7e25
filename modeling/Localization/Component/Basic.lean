import Localization.Source.Binding
import Localization.Source.Scope

/-!
Components: the functions whose texts are translated. A component is recognised by its name alone, and
the outermost one counts: inside a component no further component is looked for.
-/

namespace Localization

open Source (Node Kind ScopeStack)

/-- The name of the lookup function, which gives the text of a key. -/
def lookupName : String := "t"

/-- The name of the hook that gives the lookup function. -/
def hookName : String := "useTranslation"

def beginsUpper (cs : List Char) : Bool :=
  cs.head?.any fun c => 65 ≤ c.toNat && c.toNat ≤ 90

/-- A component has a capitalised name, and a hook of its own has `use` in front of one. -/
def isComponentName (name : String) : Bool :=
  match name.toList with
  | 'u' :: 's' :: 'e' :: rest => beginsUpper rest
  | cs => beginsUpper cs

/-- A function with the name of a component. -/
structure Candidate where
  name : String
  /-- A block, or the expression of an arrow function. -/
  body : Node
  /-- The names bound by the parameters and by the top level of the body. -/
  bindings : List String
  deriving Repr, Inhabited

namespace Candidate

/-- Whether the body is a block. -/
def hasBlock (c : Candidate) : Bool :=
  c.body.kind == .block

/-- The candidate that a function or arrow function is under a name. A function without a body is
none. -/
def ofFunction? (name : String) (f : Node) : Option Candidate := do
  if !isComponentName name then none
  else
    let body ← f.body?
    let declared := if body.kind == .block then Node.statementNames body.children else []
    some ⟨name, body, declared ++ Node.parameterNames f⟩

/-- The name and the function of a declaration, of a default export, or of an arrow function that is
the value of a variable. -/
def namedFunction? (n : Node) : Option (String × Node) :=
  match n.kind, n.children with
  | .functionDeclaration, [name, f] => do
    let text ← name.boundNames.head?
    some (text, f)
  | .exportDefaultDeclaration, [d] =>
    match d.kind, d.children with
    | .functionExpression, [name, f] => do
      let text ← name.boundNames.head?
      some (text, f)
    | _, _ => none
  | .declarator, [target, value] =>
    match target.kind, value.unparenthesized.kind with
    | .binding text, .arrow _ => some (text, value.unparenthesized)
    | _, _ => none
  | _, _ => none

def ofNode? (n : Node) : Option Candidate := do
  let (name, f) ← namedFunction? n
  ofFunction? name f

end Candidate

/-- A candidate and the scopes around it. -/
structure Found where
  candidate : Candidate
  scopes : ScopeStack
  deriving Repr, Inhabited

/-- The names that a node adds to the scopes of its parts, if it opens a scope. -/
def openedScope? (n : Node) : Option (List String) :=
  match n.kind with
  | .function _ _ | .arrow _ => some (Node.parameterNames n)
  | .block => some (Node.statementNames n.children)
  | _ => none

def scopesInside (scopes : ScopeStack) (n : Node) : ScopeStack :=
  match openedScope? n with
  | some names => scopes.enter names
  | none => scopes

mutual

/-- The outermost candidates in a node, in the order of a walk. Types are not searched. -/
def findCandidates (scopes : ScopeStack) : Node → List Found
  | .mk kind span children =>
    let n := Node.mk kind span children
    match Candidate.ofNode? n with
    | some c => [⟨c, scopes⟩]
    | none =>
      if kind == .type then []
      else findCandidatesAll (scopesInside scopes n) children

def findCandidatesAll (scopes : ScopeStack) : List Node → List Found
  | [] => []
  | n :: rest => findCandidates scopes n ++ findCandidatesAll scopes rest

end

/-- The candidates of a module, each with the names in scope around it. -/
def moduleCandidates (module : Node) : List Found :=
  findCandidatesAll (ScopeStack.empty.declare (Node.moduleNames module.children)) module.children

end Localization
