import Localization.Source.Node

/-!
Names bound by patterns and declarations.
-/

namespace Localization.Source.Node

mutual

/-- The names that a pattern or parameter binds, in order. -/
def boundNames : Node → List String
  | mk kind _ children =>
    match kind with
    | .binding name => [name]
    | .arrayPattern | .objectPattern | .keyPattern | .shorthandPattern | .defaultPattern
    | .restPattern | .parameter => boundNamesAll children
    | _ => []

def boundNamesAll : List Node → List String
  | [] => []
  | n :: rest => boundNames n ++ boundNamesAll rest

end

def parameterNames (f : Node) : List String :=
  boundNamesAll f.parameters

def declaratorNames (declarators : List Node) : List String :=
  declarators.flatMap fun d => boundNamesAll (d.children.take 1)

/-- The names that a declaration introduces: those of variables, functions, classes and
enumerations. -/
def declaredNames (n : Node) : List String :=
  match n.kind with
  | .variables _ => declaratorNames n.children
  | .functionDeclaration | .classDeclaration | .enum => boundNamesAll (n.children.take 1)
  | _ => []

/-- The names declared directly in a list of statements. -/
def statementNames (statements : List Node) : List String :=
  statements.flatMap declaredNames

def importedNames (specifier : Node) : List String :=
  match specifier.kind with
  | .importDefault name | .importNamespace name | .importNamed _ name _ => [name]
  | _ => []

/-- The names that an item declares for its module. -/
def itemNames (item : Node) : List String :=
  match item.kind with
  | .importDeclaration _ _ => item.children.flatMap importedNames
  | .exportDeclaration => item.children.flatMap declaredNames
  | .exportDefaultDeclaration =>
    item.children.flatMap fun d =>
      match d.kind with
      | .functionExpression | .classExpression => boundNamesAll (d.children.take 1)
      | _ => []
  | _ => declaredNames item

def moduleNames (items : List Node) : List String :=
  items.flatMap itemNames

end Localization.Source.Node
