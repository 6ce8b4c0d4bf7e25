import Localization.Component.Basic
import Localization.Edit.Basic
import Localization.Source.Grammar.Module
import Localization.Text.Line
import Localization.Text.Quoted

/-!
Making the hook importable: an import that provides it is kept, one from the right module is extended,
and otherwise a new one is added.
-/

namespace Localization

open Source (Node Kind)

/-- How the hook became importable. -/
inductive ImportChange where
  /-- An import already provided it. -/
  | present
  /-- It was added to an import. -/
  | extended
  /-- An import was added. -/
  | added
  deriving DecidableEq, Repr

def ImportChange.name : ImportChange → String
  | present => "present"
  | extended => "extended"
  | added => "added"

def isValueImportFrom (space : String) (item : Node) : Bool :=
  item.kind == .importDeclaration false (some space)

/-- Whether an import specifier provides the hook as a value. -/
def specifierProvidesHook (specifier : Node) : Bool :=
  match specifier.kind with
  | .importNamed (some name) _ false => name == hookName
  | _ => false

def providesHook (item : Node) : Bool :=
  item.children.any specifierProvidesHook

/-- Whether a node is a specifier in braces. -/
def isNamedSpecifier (n : Node) : Bool :=
  match n.kind with
  | .importNamed _ _ _ => true
  | _ => false

def isSpecifier (n : Node) : Bool :=
  match n.kind with
  | .importDefault _ | .importNamespace _ | .importNamed _ _ _ => true
  | _ => false

/-- The edit that adds the hook to an import, if the import can take names in braces. -/
def extendImport? (item : Node) : Option Edit :=
  let specifiers := item.children.filter isSpecifier
  match (specifiers.filter isNamedSpecifier).getLast? with
  | some last => some (Edit.insert last.span.hi (", " ++ hookName))
  | none =>
    match specifiers with
    | [specifier] =>
      match specifier.kind with
      | .importDefault _ =>
        some (Edit.insert specifier.span.hi (", \x7b " ++ hookName ++ " \x7d"))
      | _ => none
    | _ => none

/-- The byte behind the first line, if a text begins with `#!`, and else its first byte. -/
def behindFirstLine (start : Source.Place) : Nat :=
  if start.rest.take 2 = ['#', '!'] then
    let line := start.rest.takeWhile (· != '\n')
    let feed := if (start.rest.drop line.length).isEmpty then 0 else 1
    start.offset + Text.byteLength line + feed
  else start.offset

/-- The edit that adds an import: behind the directives of the module, and without any at its start. -/
def newImport (module : Node) (source : List Char) (space : String) : Edit :=
  let declaration :=
    "import \x7b " ++ hookName ++ " \x7d from " ++ Text.Quoted.encode space ++ ";"
  let newline := Text.lineEnding source
  match (module.children.takeWhile Node.isStringStatement).getLast? with
  | some directive => Edit.insert directive.span.hi (newline ++ declaration)
  | none => Edit.insert (behindFirstLine (Source.textStart source)) (declaration ++ newline)

/-- The edits that make the hook importable from a module. -/
def importEdits (module : Node) (source : List Char) (space : String) :
    ImportChange × List Edit :=
  let imports := module.children.filter (isValueImportFrom space)
  if imports.any providesHook then (.present, [])
  else
    match imports.findSome? extendImport? with
    | some edit => (.extended, [edit])
    | none => (.added, [newImport module source space])

end Localization
