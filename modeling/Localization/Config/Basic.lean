import Localization.Json.Record
import Localization.Output.Basic

/-!
Configurations: the settings of the commands as they are stored in a file. Every setting has a default
and may be left out. Main definitions: `Config.parse?` and `Config.toJson`.
-/

namespace Localization

/-- The sources that are looked at without further settings. -/
def defaultPattern : String :=
  "src/**/*.\x7bjs,jsx,ts,tsx\x7d"

/-- The module that the hook is imported from without further settings. -/
def defaultImportSource : String :=
  "i18nexus"

/-- Where dictionaries are stored without further settings. -/
def defaultOutputDirectory : String :=
  "./locales"

structure WrapConfig where
  pattern : String := defaultPattern
  generateKeys : Bool := false
  space : Option String := none
  processKorean : Bool := true
  processEnglish : Bool := false
  /-- What counts as text to be translated, whatever the two flags say. -/
  textPattern : Option String := none
  importSource : String := defaultImportSource
  keyPrefix : Option String := none
  outputDirectory : String := defaultOutputDirectory
  deriving DecidableEq, Repr, Inhabited

structure ExtractConfig where
  pattern : String := defaultPattern
  outputFile : Option String := none
  outputDirectory : String := defaultOutputDirectory
  format : OutputFormat := .json
  languages : List String := ["en", "ko"]
  space : Option String := none
  merges : Bool := true
  sortsKeys : Bool := true
  showsLines : Bool := false
  showsPaths : Bool := false
  deriving DecidableEq, Repr, Inhabited

structure Config where
  wrap : WrapConfig := {}
  extract : ExtractConfig := {}
  deriving DecidableEq, Repr, Inhabited

def OutputFormat.choices : List (String × OutputFormat) :=
  [("json", .json), ("csv", .csv)]

def OutputFormat.name : OutputFormat → String
  | json => "json"
  | csv => "csv"

namespace Json.RecordField

open Reader (text truth optional list choice)

variable {α : Type}

def ofText (name : String) (get : α → String) (set : String → α → α) : RecordField α :=
  ⟨name, do return set (← text), fun a => some (.string (get a))⟩

def ofTruth (name : String) (get : α → Bool) (set : Bool → α → α) : RecordField α :=
  ⟨name, do return set (← truth), fun a => some (.bool (get a))⟩

/-- A field with a string that may be missing; it is left out then. -/
def ofOptional (name : String) (get : α → Option String) (set : Option String → α → α) :
    RecordField α :=
  ⟨name, do return set (← optional text), fun a => (get a).map .string⟩

def ofList (name : String) (get : α → List String) (set : List String → α → α) : RecordField α :=
  ⟨name, do return set (← list text), fun a => some (.array ((get a).map .string))⟩

def ofFormat (name : String) (get : α → OutputFormat) (set : OutputFormat → α → α) :
    RecordField α :=
  ⟨name, do return set (← choice OutputFormat.choices), fun a => some (.string (get a).name)⟩

def ofRecord {β : Type} (name expected : String) (fields : List (RecordField β)) (default : β)
    (get : α → β) (set : β → α → α) : RecordField α :=
  ⟨name, do return set (← Reader.record expected fields default),
    fun a => some (Json.ofRecord fields (get a))⟩

end Json.RecordField

open Json (RecordField)

/-- The settings of wrapping in the order in which they are written. -/
def WrapConfig.fields : List (RecordField WrapConfig) :=
  [ .ofText "pattern" pattern fun v c => { c with pattern := v },
    .ofTruth "generateKeys" generateKeys fun v c => { c with generateKeys := v },
    .ofOptional "namespace" space fun v c => { c with space := v },
    .ofTruth "processKorean" processKorean fun v c => { c with processKorean := v },
    .ofTruth "processEnglish" processEnglish fun v c => { c with processEnglish := v },
    .ofOptional "textRegex" textPattern fun v c => { c with textPattern := v },
    .ofText "importSource" importSource fun v c => { c with importSource := v },
    .ofOptional "keyPrefix" keyPrefix fun v c => { c with keyPrefix := v },
    .ofText "outputDir" outputDirectory fun v c => { c with outputDirectory := v } ]

def ExtractConfig.fields : List (RecordField ExtractConfig) :=
  [ .ofText "pattern" pattern fun v c => { c with pattern := v },
    .ofOptional "outputFile" outputFile fun v c => { c with outputFile := v },
    .ofText "outputDir" outputDirectory fun v c => { c with outputDirectory := v },
    .ofFormat "format" format fun v c => { c with format := v },
    .ofList "languages" languages fun v c => { c with languages := v },
    .ofOptional "namespace" space fun v c => { c with space := v },
    .ofTruth "merge" merges fun v c => { c with merges := v },
    .ofTruth "sortKeys" sortsKeys fun v c => { c with sortsKeys := v },
    .ofTruth "includeLineNumbers" showsLines fun v c => { c with showsLines := v },
    .ofTruth "includeFilePaths" showsPaths fun v c => { c with showsPaths := v } ]

namespace Config

def fields : List (RecordField Config) :=
  [ .ofRecord "wrap" "struct WrapConfig" WrapConfig.fields {} wrap fun v c => { c with wrap := v },
    .ofRecord "extract" "struct ExtractConfig" ExtractConfig.fields {} extract
      fun v c => { c with extract := v } ]

def parse? (text : List Char) : Except Json.Error Config :=
  Json.Reader.run (Json.Reader.record "struct Config" fields {}) text

def toJson (c : Config) : Json :=
  Json.ofRecord fields c

/-- The text of the configuration without further settings. -/
def defaultText : String :=
  (toJson {}).render

end Config

end Localization
