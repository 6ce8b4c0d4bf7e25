import Localization.Component.Hook
import Localization.Component.Import
import Localization.Component.Literal
import Localization.Source.Grammar.Module

/-!
Wrapping a source: the texts of every component become calls of the lookup function, and the
function is declared where it is not bound. Main definition: `wrapSource?`.
-/

namespace Localization

open Source (Node)

structure WrapOptions where
  classifier : Classifier
  generator : KeyGenerator
  /-- The module that the hook is imported from. -/
  importSource : String
  /-- The argument of the hook. -/
  space : Option String
  deriving Repr

/-- A component in which texts were replaced. -/
structure ChangedComponent where
  name : String
  hookInserted : Bool
  deriving DecidableEq, Repr, Inhabited

/-- What was changed in a source so far. -/
structure Changes where
  edits : List Edit
  replacements : List Replacement
  components : List ChangedComponent
  keys : KeyMap
  deriving Repr, Inhabited

namespace Changes

def empty : Changes :=
  ⟨[], [], [], OrderedMap.empty⟩

def hookCount (c : Changes) : Nat :=
  (c.components.filter fun m => m.hookInserted).length

end Changes

/-- The literals of a candidate that are to be wrapped. -/
def Candidate.literals (c : Candidate) (source : List Char) (classifier : Classifier) :
    List Literal :=
  (Literal.collect source false c.body).filter fun l => classifier.accepts l.text

/-- Whether the lookup function is bound where the body of a candidate begins. -/
def Found.bindsLookup (f : Found) : Bool :=
  f.candidate.bindings.contains lookupName || f.scopes.binds lookupName

def Changes.wrapCandidate (options : WrapOptions) (source : List Char) (changes : Changes)
    (found : Found) : Changes :=
  let literals := found.candidate.literals source options.classifier
  if literals.isEmpty then changes
  else
    let (keyed, keys) := assignKeys options.generator changes.keys literals
    let hook :=
      if found.bindsLookup then none
      else found.candidate.hookEdits? source options.space
    { edits :=
        changes.edits ++ keyed.map (fun l => replacementEdit l.1 l.2) ++ hook.getD []
      replacements :=
        changes.replacements ++ keyed.map fun l => replacementOf source l.1 l.2
      components := changes.components ++ [⟨found.candidate.name, hook.isSome⟩]
      keys := keys }

def wrapModule (options : WrapOptions) (source : List Char) (module : Node) : Changes :=
  (moduleCandidates module).foldl (Changes.wrapCandidate options source) Changes.empty

/-- A source in which texts were wrapped. -/
structure WrappedSource where
  output : List Char
  changes : Changes
  importChange : Option ImportChange
  deriving Repr, Inhabited

/-- Why the texts of a source cannot be wrapped. -/
inductive WrapError where
  | syntaxError (e : Source.SyntaxError)
  | edit (e : EditError)
  deriving DecidableEq, Repr

/-- The import change and all edits for the changes of a module. -/
def withImport (options : WrapOptions) (source : List Char) (module : Node)
    (changes : Changes) : Option ImportChange × List Edit :=
  if changes.hookCount = 0 then (none, changes.edits)
  else
    let (change, edits) := importEdits module source options.importSource
    (some change, changes.edits ++ edits)

/-- Wraps the texts of a source; `none` if no component has a text to be wrapped. -/
def wrapSource? (options : WrapOptions) (path : String) (source : List Char) :
    Except WrapError (Option WrappedSource) := do
  let module ← (Source.parseFile path source).mapError .syntaxError
  let changes := wrapModule options source module
  if changes.components.isEmpty then .ok none
  else
    let (importChange, edits) := withImport options source module changes
    let output ← (Edit.applyAll source edits).mapError .edit
    .ok (some ⟨output, changes, importChange⟩)

end Localization
