import Localization.Settings

/-!
Where a command looks. The rest of a file system makes no difference to a run.
-/

namespace Localization

/-- Paths that a run looks at. -/
structure Places where
  /-- Directories that are searched for sources. -/
  searched : List String
  /-- Single files. -/
  files : List String
  deriving DecidableEq, Repr

namespace Places

/-- Some directories upwards from a first one, at most a number of them. -/
def upwards : Nat → String → List String
  | 0, directory => [directory]
  | levels + 1, directory =>
    match Path.parent? directory with
    | none => [directory]
    | some above => directory :: upwards levels above

/-- The files that tell which configuration counts. -/
def ofConfig (w : Workspace) : Places where
  searched := []
  files := (upwards w.current.length w.currentPath).flatMap fun directory =>
    [Path.join directory Config.fileName, Path.join directory Config.repositoryMark]

/-- The directories in which the sources of a pattern are looked for. -/
def searchedFor (w : Workspace) (pattern : String) : List String :=
  match globsOf pattern with
  | .ok globs => globs.map fun g => Path.join w.currentPath g.startPath
  | .error _ => []

def ofCommand (w : Workspace) (config : Config) : Command → Places
  | .wrap a =>
    let s := WrapSettings.resolve a config.wrap
    ⟨searchedFor w s.pattern, [Path.join w.currentPath s.keyFilePath]⟩
  | .extract a =>
    match ExtractSettings.resolve a config.extract with
    | .ok s =>
      ⟨searchedFor w s.pattern,
        (s.renderer.paths (s.plan .empty)).map (Path.join w.currentPath)⟩
    | .error _ => ⟨[], []⟩
  | .init => ⟨[], []⟩

def ofRequest (w : Workspace) : Request → Places
  | .run command =>
    match Config.load w w.currentPath with
    | .ok loaded => ofCommand w loaded.config command
    | .error _ => ⟨[], []⟩
  | _ => ⟨[], []⟩

end Places

end Localization
