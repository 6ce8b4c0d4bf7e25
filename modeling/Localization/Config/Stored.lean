import Localization.Component.Classifier
import Localization.Config.Basic
import Localization.Pattern.Selection

/-!
Configurations in files. A configuration is looked for from a directory upwards, as far as the
repository reaches; it is checked when it is loaded.
-/

namespace Localization

namespace Classifier

/-- The test of a custom pattern or, without one, of a mode. -/
def load (mode : TextMode) (custom : Option String) : Except Failure Classifier :=
  let pattern := custom.getD mode.pattern
  (ofPattern? pattern).mapError fun e =>
    ⟨[.compilingExpression pattern], .expression pattern e⟩

end Classifier

namespace Config

def fileName : String :=
  ".i18nexusrc.json"

/-- What marks the top of a repository. -/
def repositoryMark : String :=
  ".git"

/-- Refuses settings that no command could use. -/
def validate (c : Config) : Except Failure Unit := do
  let _ ← (globsOf c.wrap.pattern).mapError (Failure.within (.checkingSetting "wrap.pattern"))
  let _ ← (globsOf c.extract.pattern).mapError (Failure.within (.checkingSetting "extract.pattern"))
  match c.wrap.textPattern with
  | none => .ok ()
  | some pattern =>
    let _ ← (Classifier.load .korean (some pattern)).mapError
      (Failure.within (.checkingSetting "wrap.textRegex"))
  if c.extract.languages.isEmpty then .error (.of .noConfiguredLanguage)

/-- Looks for a configuration file in a directory and at most a number of directories above it. -/
def findFrom (w : Workspace) : Nat → String → Option String
  | 0, _ => none
  | levels + 1, directory =>
    let path := Path.join directory fileName
    if w.exists path then some path
    else if w.exists (Path.join directory repositoryMark) then none
    else
      match Path.parent? directory with
      | none => none
      | some above => findFrom w levels above

/-- The configuration file for a directory: the nearest one upwards, but none above the top of a
repository. -/
def find? (w : Workspace) (directory : String) : Option String :=
  findFrom w (directory.length + 1) directory

/-- A configuration, and whether it stands in a file. -/
structure Loaded where
  config : Config
  fromFile : Bool
  deriving DecidableEq, Repr

def read (w : Workspace) (path : String) : Except Failure Config := do
  let text ← (w.readText path).mapError (Failure.ofFile (.readingConfig path))
  let config ← (parse? text).mapError fun e => ⟨[.parsingConfig path], .json e⟩
  validate config
  .ok config

/-- The configuration for a directory; without a file, every setting has its default. -/
def load (w : Workspace) (directory : String) : Except Failure Loaded :=
  match find? w directory with
  | none => .ok ⟨{}, false⟩
  | some path => do
    let config ← read w path
    .ok ⟨config, true⟩

end Config

end Localization
