import Localization.Dictionary
import Localization.Output.Sheet

/-!
Outputs of an extraction: one dictionary per language, or one sheet with the English and the Korean
texts. Outputs are rendered from what is stored already and written in a second step.
-/

namespace Localization

inductive OutputFormat where
  | json
  | csv
  deriving DecidableEq, Repr, Inhabited

/-- What every form of output is made from. -/
structure OutputPlan where
  directory : String
  keys : KeySet
  space : Option String
  /-- Whether the dictionaries that are stored already count. -/
  merges : Bool
  isSorted : Bool
  deriving Repr

structure OutputFile where
  path : String
  contents : List Char
  /-- The number of keys that were not there before. -/
  added : Nat
  deriving DecidableEq, Repr, Inhabited

/-- A form of output with its settings. -/
inductive Renderer where
  /-- A dictionary for each language. -/
  | dictionaries (languages : List String) (fileName : Option String)
  | sheet (fileName : String)
  deriving DecidableEq, Repr

namespace OutputPlan

/-- Where the dictionary of a language is stored if there is more than one. -/
def dictionaryPath (p : OutputPlan) (language : String) : String :=
  match p.space with
  | some space => Path.join (Path.join p.directory language) (space ++ ".json")
  | none => Path.join p.directory (language ++ ".json")

/-- The dictionary that is stored at a path, if it counts. -/
def existing? (p : OutputPlan) (w : Workspace) (path : String) :
    Except Failure (Option Dictionary) :=
  if p.merges then Dictionary.read? w path else .ok none

/-- Where the dictionary of one of some languages is written. A file name of its own, or else that of
the name space, needs a directory for each language unless there is only one. -/
def outputPath (p : OutputPlan) (languages : List String) (fileName : Option String)
    (language : String) : String :=
  match fileName <|> p.space.map (· ++ ".json") with
  | some name =>
    if languages.length = 1 then Path.join p.directory name
    else Path.join (Path.join p.directory language) name
  | none => Path.join p.directory (language ++ ".json")

/-- The dictionary of a language with the keys of the plan. -/
def renderDictionary (p : OutputPlan) (w : Workspace) (path : String) :
    Except Failure OutputFile := do
  let existing ← p.existing? w path
  let (dictionary, added) := Dictionary.merge existing p.keys p.isSorted
  .ok ⟨path, dictionary.render.toList, added⟩

def textIn? (d : Option Dictionary) (key : String) : Option String :=
  d.bind fun d => d.textOf? key

/-- The record of a key: the key, its English text and its Korean one. A key without a Korean text has
its initial text there. -/
def sheetRecord (english korean : Option Dictionary) (o : Occurrence) : List String :=
  [o.key, (textIn? english o.key).getD "", (textIn? korean o.key).getD o.initialText]

def sheetHeader : List String :=
  ["Key", "English", "Korean"]

def renderSheet (p : OutputPlan) (w : Workspace) (fileName : String) :
    Except Failure OutputFile := do
  let english ← p.existing? w (p.dictionaryPath "en")
  let korean ← p.existing? w (p.dictionaryPath "ko")
  let keys := p.keys.ordered p.isSorted
  let records := keys.map (sheetRecord english korean)
  let added := keys.countP fun o => (textIn? korean o.key).isNone
  .ok ⟨Path.join p.directory fileName, Sheet.render (sheetHeader :: records), added⟩

end OutputPlan

namespace Renderer

def defaultSheetName : String := "extracted-translations.csv"

def jsonEnding : List Char := ['.', 'j', 's', 'o', 'n']

/-- The name of a sheet: one that ends like a dictionary gets the ending of a sheet instead. -/
def sheetName (fileName : Option String) : String :=
  match fileName with
  | none => defaultSheetName
  | some name =>
    if jsonEnding.isSuffixOf name.toList then
      String.ofList (name.toList.take (name.length - jsonEnding.length)) ++ ".csv"
    else name

def ofFormat (format : OutputFormat) (languages : List String) (fileName : Option String) :
    Renderer :=
  match format with
  | .json => dictionaries languages fileName
  | .csv => sheet (sheetName fileName)

/-- The files that an output reads or writes. -/
def paths (r : Renderer) (p : OutputPlan) : List String :=
  match r with
  | dictionaries languages fileName => languages.map (p.outputPath languages fileName)
  | sheet fileName =>
    [p.dictionaryPath "en", p.dictionaryPath "ko", Path.join p.directory fileName]

def render (r : Renderer) (p : OutputPlan) (w : Workspace) : Except Failure (List OutputFile) :=
  match r with
  | dictionaries languages fileName =>
    languages.mapM fun language =>
      p.renderDictionary w (p.outputPath languages fileName language)
  | sheet fileName => do
    let file ← p.renderSheet w fileName
    .ok [file]

end Renderer

namespace OutputFile

/-- Writes files one after the other, up to the first failure. -/
def writeAll : List OutputFile → Workspace → Workspace × Except Failure Unit
  | [], w => (w, .ok ())
  | f :: rest, w =>
    match w.save f.path f.contents with
    | (written, .error e) => (written, .error e)
    | (written, .ok ()) => writeAll rest written

end OutputFile

end Localization
