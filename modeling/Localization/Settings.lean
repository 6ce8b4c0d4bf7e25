import Localization.CommandLine.Command
import Localization.Component.Wrap
import Localization.Config.Stored

/-!
Settings of a run: what the command line says counts first, then the configuration.
-/

namespace Localization

structure WrapSettings where
  pattern : String
  generateKeys : Bool
  space : Option String
  mode : TextMode
  textPattern : Option String
  importSource : String
  keyPrefix : Option String
  outputDirectory : String
  isDryRun : Bool
  isVerbose : Bool
  deriving DecidableEq, Repr

namespace WrapSettings

def resolve (a : WrapArguments) (c : WrapConfig) : WrapSettings where
  pattern := a.pattern.getD c.pattern
  generateKeys := a.generateKeys || c.generateKeys
  space := a.space <|> c.space
  mode := TextMode.ofFlags (c.processKorean && !a.noKorean) (c.processEnglish || a.english)
  textPattern := a.textPattern <|> c.textPattern
  importSource := a.importSource.getD c.importSource
  keyPrefix := a.keyPrefix <|> c.keyPrefix
  outputDirectory := a.outputDirectory.getD c.outputDirectory
  isDryRun := a.isDryRun
  isVerbose := a.isVerbose

def options (s : WrapSettings) : Except Failure WrapOptions := do
  let classifier ← Classifier.load s.mode s.textPattern
  .ok ⟨classifier, KeyGenerator.make s.generateKeys s.keyPrefix, s.importSource, s.space⟩

/-- The name of the key file, up to its ending, without a name space. -/
def defaultKeyFile : String :=
  "common"

def keyFilePath (s : WrapSettings) : String :=
  Path.join s.outputDirectory (s.space.getD defaultKeyFile ++ ".json")

end WrapSettings

structure ExtractSettings where
  pattern : String
  outputFile : Option String
  outputDirectory : String
  format : OutputFormat
  languages : List String
  space : Option String
  merges : Bool
  isSorted : Bool
  showsLines : Bool
  showsPaths : Bool
  isDryRun : Bool
  isVerbose : Bool
  deriving DecidableEq, Repr

namespace ExtractSettings

/-- The languages that a command line names, without blanks around them. -/
def namedLanguages (languages : List String) : List String :=
  (languages.map Text.trimString).filter fun l => !l.isEmpty

def resolve (a : ExtractArguments) (c : ExtractConfig) : Except Failure ExtractSettings :=
  let languages := if a.languages.isEmpty then c.languages else namedLanguages a.languages
  if languages.isEmpty then .error (.of .noLanguage)
  else
    .ok
      { pattern := a.pattern.getD c.pattern
        outputFile := a.outputFile <|> c.outputFile
        outputDirectory := a.outputDirectory.getD c.outputDirectory
        format := a.format.getD c.format
        languages := languages
        space := a.space <|> c.space
        merges := c.merges && !a.noMerge
        isSorted := c.sortsKeys && !a.noSort
        showsLines := a.lineNumbers || c.showsLines
        showsPaths := a.filePaths || c.showsPaths
        isDryRun := a.isDryRun
        isVerbose := a.isVerbose }

def renderer (s : ExtractSettings) : Renderer :=
  Renderer.ofFormat s.format s.languages s.outputFile

def plan (s : ExtractSettings) (keys : KeySet) : OutputPlan :=
  ⟨s.outputDirectory, keys, s.space, s.merges, s.isSorted⟩

end ExtractSettings

end Localization
