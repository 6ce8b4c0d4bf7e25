import Localization.Command.Extract
import Localization.Command.Wrap
import Localization.Text.Width

/-!
What the commands print about what they did. Styles are written as terminal codes in front of a text and
taken back behind it; without colour, a text stands for itself.
-/

namespace Localization

/-! ## Styled text -/

inductive Style where
  | bold
  | dimmed
  | green
  | yellow
  | cyan
  deriving DecidableEq, Repr

def Style.code : Style → String
  | bold => "1"
  | dimmed => "2"
  | green => "32"
  | yellow => "33"
  | cyan => "36"

def escapeSign : List Char :=
  ['\x1b', '[']

/-- The code that takes all styles back. -/
def resetCode : List Char :=
  escapeSign ++ ['0', 'm']

def styleCode (styles : List Style) : List Char :=
  escapeSign ++ (String.intercalate ";" (styles.map Style.code)).toList ++ ['m']

/-- A text in which the styles are set again behind every code that takes them back. -/
def restyled (code : List Char) : List Char → List Char
  | '\x1b' :: '[' :: '0' :: 'm' :: rest => resetCode ++ code ++ restyled code rest
  | c :: rest => c :: restyled code rest
  | [] => []

/-- A text in some styles, the bold or dimmed one first. -/
def styled (isColored : Bool) (styles : List Style) (text : String) : String :=
  if isColored then
    let code := styleCode styles
    String.ofList (code ++ restyled code text.toList ++ resetCode)
  else text

/-! ## Reports -/

open Text (counted displayWidth)

/-- How a report is printed. -/
structure ReportStyle where
  isVerbose : Bool
  isColored : Bool
  deriving DecidableEq, Repr

namespace ReportStyle

/-- A text in some styles. -/
def paint (r : ReportStyle) (styles : List Style) (text : String) : String :=
  styled r.isColored styles text

def mark (r : ReportStyle) : String :=
  r.paint [.green] "✓"

def warning (r : ReportStyle) : String :=
  r.paint [.bold, .yellow] "warning:"

end ReportStyle

def placeText (line column : Nat) : String :=
  toString line ++ ":" ++ toString column

def printed (line : String) : String :=
  line ++ "\n"

/-! ## Sources that were skipped -/

/-- The warning about a number of sources that are no modules. Details stand instead of it if they are
asked for. -/
def skippedWarning (r : ReportStyle) (count : Nat) : String :=
  if count = 0 || r.isVerbose then ""
  else
    printed (r.warning ++ " " ++ toString count ++ " file(s) could not be parsed (use " ++
      r.paint [.cyan] "-v" ++ " for details)")

def skippedReport (r : ReportStyle) (skipped : List SkippedFile) : String :=
  let details := skipped.map fun s =>
    printed (r.warning ++ " " ++ r.paint [.dimmed] "skipped" ++ " " ++ s.path ++ ": " ++
      s.failure.message)
  (if r.isVerbose then String.join details else "") ++ skippedWarning r skipped.length

/-! ## Wrapping -/

/-- The line for a literal. The key is told if it is not the text itself. -/
def Replacement.report (r : ReportStyle) (l : Replacement) : String :=
  let start := "    " ++ placeText l.line l.column ++ " \x22" ++ l.text ++ "\x22"
  if l.key = l.text then printed start
  else printed (start ++ " " ++ r.paint [.dimmed] "->" ++ " " ++ r.paint [.cyan] l.key)

def ChangedComponent.report (r : ReportStyle) (c : ChangedComponent) : String :=
  if c.hookInserted then
    printed ("    " ++ r.paint [.green] "+" ++ " useTranslation() in " ++ c.name)
  else ""

def ImportChange.report (r : ReportStyle) : ImportChange → String
  | added => printed ("    " ++ r.paint [.green] "+" ++ " import")
  | extended => printed ("    " ++ r.paint [.yellow] "~" ++ " import (extended)")
  | present => ""

def WrappedFile.report (r : ReportStyle) (isDryRun : Bool) (f : WrappedFile) : String :=
  let state :=
    if isDryRun then r.paint [.yellow] "Would be modified" else r.paint [.green] "Modified"
  let details :=
    String.join (f.replacements.map (Replacement.report r)) ++
      String.join (f.components.map (ChangedComponent.report r)) ++
      ((f.importChange.map (ImportChange.report r)).getD "")
  printed (r.paint [.bold] f.path ++ " - " ++ state) ++ (if r.isVerbose then details else "")

def KeyFileSummary.report (isDryRun : Bool) (k : KeyFileSummary) : String :=
  printed ((if isDryRun then "Would update" else "Updated") ++ " " ++ k.path ++ " (" ++
    counted k.total "key" "keys" ++ " generated, " ++ toString k.added ++ " new)")

def WrapSummary.report (r : ReportStyle) (s : WrapSummary) : String :=
  if s.files.isEmpty then
    printed (r.mark ++ " " ++ r.paint [.green]
      ("Scanned " ++ counted s.scanned "file" "files" ++ " - nothing to wrap"))
  else
    let verb :=
      if s.isDryRun then r.paint [.bold, .yellow] "Would wrap"
      else r.paint [.bold, .green] "Wrapped"
    String.join (s.files.map (WrappedFile.report r s.isDryRun)) ++
      printed (verb ++ " " ++ counted s.literalCount "string" "strings" ++ " in " ++
        counted s.files.length "file" "files" ++ " (" ++
        counted s.hookCount "hook" "hooks" ++ " inserted, " ++ toString s.scanned ++
        " scanned)") ++
      ((s.keyFile.map (KeyFileSummary.report s.isDryRun)).getD "") ++
      (if s.isDryRun then
        printed ("Run without " ++ r.paint [.cyan] "--dry-run" ++ " to write these changes.")
      else "")

/-! ## Extraction -/

/-- The number of characters that are shown of a file that is not written. -/
def previewLength : Nat := 500

def OutputFile.report (r : ReportStyle) (isDryRun : Bool) (f : OutputFile) : String :=
  if isDryRun then
    printed (r.paint [.bold, .yellow] "Would write" ++ " " ++ f.path) ++
      printed (String.ofList (f.contents.take previewLength)) ++
      (if previewLength < f.contents.length then printed (r.paint [.dimmed] "...") else "")
  else
    printed (r.mark ++ " Wrote " ++ f.path ++ " (" ++
      counted f.added "new key" "new keys" ++ ")")

namespace ExtractSummary

/-- The place of a key as far as it is shown. -/
def place? (s : ExtractSummary) (o : Occurrence) : Option String :=
  if s.showsPaths then
    some (if s.showsLines then o.file ++ ":" ++ toString o.line else o.file)
  else if s.showsLines then some ("line " ++ toString o.line)
  else none

/-- The lines that list the keys, with their places in one column. -/
def listing (s : ExtractSummary) (r : ReportStyle) : String :=
  let width := (s.keys.map fun o => displayWidth o.key).foldl max 0
  String.join (s.keys.map fun o =>
    match s.place? o with
    | some place =>
      let blanks := List.replicate (width - displayWidth o.key) ' '
      printed ("  " ++ o.key ++ String.ofList blanks ++ "  " ++ r.paint [.dimmed] place)
    | none => printed ("  " ++ o.key))

def repeatsReport (s : ExtractSummary) (r : ReportStyle) : String :=
  if s.repeats.isEmpty then ""
  else
    printed (r.warning ++ " " ++ counted s.repeats.length "duplicate key" "duplicate keys" ++
      " (first occurrence kept)") ++
      (if r.isVerbose then
        String.join (s.repeats.map fun o =>
          printed ("    " ++ o.key ++ " " ++ o.file ++ ":" ++ placeText o.line o.column))
      else "")

def report (s : ExtractSummary) (r : ReportStyle) : String :=
  String.join (s.outputs.map (OutputFile.report r s.isDryRun)) ++
    printed (r.paint [.bold, .green] "Extracted" ++ " " ++
      counted s.keys.length "key" "keys" ++ " from " ++ counted s.scanned "file" "files") ++
    s.repeatsReport r ++
    (if r.isVerbose || s.showsPaths || s.showsLines then s.listing r else "")

end ExtractSummary

end Localization
