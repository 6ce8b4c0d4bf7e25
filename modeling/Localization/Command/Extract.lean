import Localization.Extraction
import Localization.Settings

/-!
The command that extracts keys. All outputs are rendered before the first one is written. Main
definition: `extractProject`.
-/

namespace Localization

structure ExtractSummary where
  scanned : Nat
  /-- The keys in the order of the output. -/
  keys : List Occurrence
  repeats : List Occurrence
  outputs : List OutputFile
  showsPaths : Bool
  showsLines : Bool
  isDryRun : Bool
  deriving DecidableEq, Repr

/-- What a run says at its end. -/
structure ExtractResult where
  summary : ExtractSummary
  skipped : List SkippedFile
  deriving DecidableEq, Repr

/-- What an extraction run is going to do. -/
def planExtraction (w : Workspace) (s : ExtractSettings) : Except Failure ExtractResult := do
  let paths ← selectFiles w w.currentPath s.pattern
  let extraction ← Extraction.ofFiles w paths
  let outputs ← s.renderer.render (s.plan extraction.keys) w
  .ok
    { summary :=
        { scanned := extraction.scanned
          keys := extraction.keys.ordered s.isSorted
          repeats := extraction.keys.repeats
          outputs := outputs
          showsPaths := s.showsPaths
          showsLines := s.showsLines
          isDryRun := s.isDryRun }
      skipped := extraction.skipped }

/-- Writes the outputs of a result unless that was not asked for. -/
def ExtractResult.perform (r : ExtractResult) (w : Workspace) :
    Workspace × Except Failure ExtractResult :=
  if r.summary.isDryRun then (w, .ok r)
  else
    match OutputFile.writeAll r.summary.outputs w with
    | (written, .error f) => (written, .error f)
    | (written, .ok ()) => (written, .ok r)

def planProject (w : Workspace) (a : ExtractArguments) : Except Failure ExtractResult := do
  let loaded ← Config.load w w.currentPath
  let settings ← ExtractSettings.resolve a loaded.config.extract
  planExtraction w settings

def extractProject (w : Workspace) (a : ExtractArguments) :
    Workspace × Except Failure ExtractResult :=
  match planProject w a with
  | .error f => (w, .error f)
  | .ok r => r.perform w

end Localization
