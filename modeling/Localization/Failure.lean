import Localization.Edit.Basic
import Localization.Json.Error
import Localization.Pattern.Glob
import Localization.Regex.Meaning
import Localization.Text.Quoted
import Localization.Tree.Workspace

/-!
Failures: what went wrong, and what was being done at that time.
-/

namespace Localization

/-- What was being done. -/
inductive Activity where
  | compilingPattern (pattern : String)
  | compilingExpression (pattern : String)
  | checkingSetting (name : String)
  | readingSource (path : String)
  | readingDictionary (path : String)
  | parsingDictionary (path : String)
  | readingConfig (path : String)
  | parsingConfig (path : String)
  | creatingDirectory (path : String)
  | writingFile (path : String)
  | writingConfig (name : String)
  deriving DecidableEq, Repr

def Activity.message : Activity → String
  | compilingPattern pattern => "Invalid glob pattern: \x22" ++ pattern ++ "\x22"
  | compilingExpression pattern => "Invalid text regex: \x22" ++ pattern ++ "\x22"
  | checkingSetting name => "Invalid '" ++ name ++ "'"
  | readingSource path => "Failed to read file: " ++ path
  | readingDictionary path => "Failed to read JSON file: " ++ path
  | parsingDictionary path => "Failed to parse JSON file: " ++ path
  | readingConfig path => "Failed to read config file: " ++ Text.quotedInMessage path
  | parsingConfig path => "Failed to parse config file: " ++ Text.quotedInMessage path
  | creatingDirectory path => "Failed to create directory: " ++ path
  | writingFile path => "Failed to write file: " ++ path
  | writingConfig name => "Failed to write " ++ name

/-- What went wrong. -/
inductive Cause where
  | expression (pattern : String) (rejection : Regex.Rejection)
  | glob (fault : Glob.Fault)
  | json (error : Json.Error)
  | file (error : FileError)
  /-- A source that is not a module. -/
  | source (path : String)
  | edit (error : EditError)
  /-- A dictionary file that holds another value. -/
  | notDictionary (path : String)
  /-- A configuration without languages. -/
  | noConfiguredLanguage
  /-- A command line whose languages are all blank. -/
  | noLanguage
  deriving DecidableEq, Repr

def Cause.message : Cause → String
  | expression pattern rejection => rejection.message pattern
  | glob fault => fault.message
  | json error => error.message
  | file error => error.message
  | source path => "Failed to parse " ++ path
  | edit error => error.message
  | notDictionary path => "Root of JSON file must be an object: " ++ path
  | noConfiguredLanguage => "'extract.languages' must name at least one language"
  | noLanguage => "At least one language is required"

/-- A cause, and what was being done, the widest activity first. -/
structure Failure where
  during : List Activity
  cause : Cause
  deriving DecidableEq, Repr

namespace Failure

def of (cause : Cause) : Failure :=
  ⟨[], cause⟩

def ofFile (activity : Activity) (error : FileError) : Failure :=
  ⟨[activity], .file error⟩

/-- The same failure, seen from a wider activity. -/
def within (activity : Activity) (f : Failure) : Failure :=
  { f with during := activity :: f.during }

/-- The wording of a failure: the activities and the cause, joined by colons. -/
def message (f : Failure) : String :=
  String.intercalate ": " (f.during.map Activity.message ++ [f.cause.message])

end Failure

end Localization
