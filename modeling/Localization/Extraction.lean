import Localization.Failure
import Localization.Key.Set
import Localization.Source.Grammar.Module

/-!
Extraction of keys from files. A file that cannot be read ends the extraction; one that is no module is
skipped and reported.
-/

namespace Localization

structure SkippedFile where
  path : String
  failure : Failure
  deriving DecidableEq, Repr

structure Extraction where
  keys : KeySet
  skipped : List SkippedFile
  scanned : Nat
  deriving DecidableEq, Repr

structure SourceText where
  path : String
  text : List Char
  deriving DecidableEq, Repr, Inhabited

/-- Reads sources, which lie below a directory. -/
def readSources (w : Workspace) (directory : String) (paths : List String) :
    Except Failure (List SourceText) :=
  paths.mapM fun path => do
    let text ← (w.readText (Path.join directory path)).mapError
      (Failure.ofFile (.readingSource path))
    .ok ⟨path, text⟩

namespace Extraction

def occurrences (s : SourceText) : Except Failure (List Occurrence) :=
  match Source.parseFile s.path s.text with
  | .ok tree => .ok (Occurrence.collect s.path s.text tree)
  | .error _ => .error (.of (.source s.path))

def ofSources (sources : List SourceText) : Extraction :=
  -- A source that is skipped gives no key, but counts as scanned.
  let results := sources.map fun s => (s.path, occurrences s)
  { keys := KeySet.ofOccurrences (results.flatMap fun r => r.2.toOption.getD [])
    skipped := results.filterMap fun r =>
      match r.2 with
      | .ok _ => none
      | .error f => some ⟨r.1, f⟩
    scanned := sources.length }

/-- The keys of the files at some paths, which are seen from the current directory. -/
def ofFiles (w : Workspace) (paths : List String) : Except Failure Extraction := do
  let sources ← readSources w "" paths
  .ok (ofSources sources)

end Extraction

end Localization
