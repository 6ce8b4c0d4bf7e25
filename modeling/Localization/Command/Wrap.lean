import Localization.Extraction
import Localization.Settings

/-!
The command that wraps texts. All sources are read before anything is written; then the sources that
change are written, and the generated keys are added to the key file. Main definition: `wrapProject`.
-/

namespace Localization

/-- A source that changes. -/
structure WrappedFile where
  path : String
  replacements : List Replacement
  components : List ChangedComponent
  hookCount : Nat
  importChange : Option ImportChange
  deriving DecidableEq, Repr

/-- What happens to the key file. -/
structure KeyFileSummary where
  path : String
  /-- The number of keys that were generated. -/
  total : Nat
  /-- The number of those that are new. -/
  added : Nat
  deriving DecidableEq, Repr

structure WrapSummary where
  scanned : Nat
  files : List WrappedFile
  keyFile : Option KeyFileSummary
  isDryRun : Bool
  deriving DecidableEq, Repr

namespace WrapSummary

def literalCount (s : WrapSummary) : Nat :=
  (s.files.map fun f => f.replacements.length).foldr (· + ·) 0

def hookCount (s : WrapSummary) : Nat :=
  (s.files.map WrappedFile.hookCount).foldr (· + ·) 0

end WrapSummary

/-- What a wrapping run found out before it writes anything. -/
structure WrapPlan where
  scanned : Nat
  /-- The sources that change. -/
  wrapped : List (String × WrappedSource)
  skipped : List SkippedFile

namespace WrapPlan

def failureOf (path : String) : WrapError → Failure
  | .syntaxError _ => .of (.source path)
  | .edit e => .of (.edit e)

def ofSources (options : WrapOptions) (sources : List SourceText) : WrapPlan :=
  let results := sources.map fun s => (s.path, wrapSource? options s.path s.text)
  { scanned := sources.length
    wrapped := results.filterMap fun r =>
      match r.2 with
      | .ok (some wrapped) => some (r.1, wrapped)
      | _ => none
    skipped := results.filterMap fun r =>
      match r.2 with
      | .ok _ => none
      | .error e => some ⟨r.1, failureOf r.1 e⟩ }

def make (w : Workspace) (s : WrapSettings) : Except Failure WrapPlan := do
  let options ← s.options
  let paths ← selectFiles w w.currentPath s.pattern
  let sources ← readSources w w.currentPath paths
  .ok (ofSources options sources)

def keys (p : WrapPlan) : KeyMap :=
  p.wrapped.foldl (fun keys r => keys.extend r.2.changes.keys) OrderedMap.empty

def fileSummary (r : String × WrappedSource) : WrappedFile :=
  ⟨r.1, r.2.changes.replacements, r.2.changes.components, r.2.changes.hookCount,
    r.2.importChange⟩

/-- Writes the sources that change, one after the other, up to the first failure. -/
def writeSources : List (String × WrappedSource) → Workspace → Workspace × Except Failure Unit
  | [], w => (w, .ok ())
  | (path, r) :: rest, w =>
    let target := Path.join w.currentPath path
    match w.writeText target r.output with
    | .error e => (w, .error (.ofFile (.writingFile target) e))
    | .ok written => writeSources rest written

end WrapPlan

/-- Adds generated keys to the key file. -/
def updateKeyFile (w : Workspace) (path : String) (keys : KeyMap) (isDryRun : Bool) :
    Workspace × Except Failure KeyFileSummary :=
  match Dictionary.read? w path with
  | .error f => (w, .error f)
  | .ok existing =>
    let (dictionary, added) := Dictionary.mergeGenerated existing keys
    let summary : KeyFileSummary := ⟨path, keys.size, added⟩
    if isDryRun then (w, .ok summary)
    else
      match dictionary.write w path with
      | (written, .ok ()) => (written, .ok summary)
      | (written, .error f) => (written, .error f)

/-- What a run says at its end. -/
structure WrapResult where
  summary : WrapSummary
  skipped : List SkippedFile
  deriving DecidableEq, Repr

/-- Carries out a plan. -/
def WrapPlan.perform (p : WrapPlan) (w : Workspace) (s : WrapSettings) :
    Workspace × Except Failure WrapResult :=
  let result := fun keyFile : Option KeyFileSummary =>
    (⟨⟨p.scanned, p.wrapped.map fileSummary, keyFile, s.isDryRun⟩, p.skipped⟩ : WrapResult)
  match if s.isDryRun then (w, .ok ()) else writeSources p.wrapped w with
  | (written, .error f) => (written, .error f)
  | (written, .ok ()) =>
    if p.keys.isEmpty then (written, .ok (result none))
    else
      match updateKeyFile written s.keyFilePath p.keys s.isDryRun with
      | (updated, .error f) => (updated, .error f)
      | (updated, .ok keyFile) => (updated, .ok (result (some keyFile)))

def wrapProject (w : Workspace) (a : WrapArguments) : Workspace × Except Failure WrapResult :=
  match Config.load w w.currentPath with
  | .error f => (w, .error f)
  | .ok loaded =>
    let settings := WrapSettings.resolve a loaded.config.wrap
    match WrapPlan.make w settings with
    | .error f => (w, .error f)
    | .ok plan => plan.perform w settings

end Localization
