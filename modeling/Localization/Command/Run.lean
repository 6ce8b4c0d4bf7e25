import Localization.Report.Basic

/-!
Running a command line: what is printed, how the run ends, and what it leaves behind. Main definition:
`runProgram`.
-/

namespace Localization

/-- The end of a run. -/
structure Run where
  workspace : Workspace
  output : String
  errors : String
  succeeds : Bool
  deriving Repr

namespace Run

def status (r : Run) : Nat :=
  if r.succeeds then 0 else 1

end Run

def failureText (f : Failure) : String :=
  printed ("Error: " ++ f.message)

/-- The note that there is no configuration, if details are asked for. -/
def configNote (w : Workspace) (isVerbose : Bool) : String :=
  match Config.load w w.currentPath with
  | .ok ⟨_, false⟩ =>
    if isVerbose then
      printed ("Note: No " ++ Config.fileName ++ " found, using default configuration")
    else ""
  | _ => ""

def runWrap (w : Workspace) (isColored : Bool) (a : WrapArguments) : Run :=
  let note := configNote w a.isVerbose
  let style : ReportStyle := ⟨a.isVerbose, isColored⟩
  match wrapProject w a with
  | (after, .ok r) => ⟨after, r.summary.report style, note ++ skippedReport style r.skipped, true⟩
  | (after, .error f) => ⟨after, "", note ++ failureText f, false⟩

def runExtract (w : Workspace) (isColored : Bool) (a : ExtractArguments) : Run :=
  let note := configNote w a.isVerbose
  let style : ReportStyle := ⟨a.isVerbose, isColored⟩
  match extractProject w a with
  | (after, .ok r) => ⟨after, r.summary.report style, note ++ skippedReport style r.skipped, true⟩
  | (after, .error f) => ⟨after, "", note ++ failureText f, false⟩

/-- The run of the command that writes a configuration. One that is there is never overwritten. -/
def runInit (w : Workspace) (isColored : Bool) : Run :=
  let style : ReportStyle := ⟨false, isColored⟩
  if w.exists Config.fileName then
    ⟨w, "", printed ("Error: " ++ Config.fileName ++ " already exists"), false⟩
  else
    match w.writeText Config.fileName Config.defaultText.toList with
    | .ok after =>
      ⟨after, printed (style.mark ++ " " ++ style.paint [.green] ("Created " ++ Config.fileName)),
        "", true⟩
    | .error e => ⟨w, "", failureText (.ofFile (.writingConfig Config.fileName) e), false⟩

def Command.run (w : Workspace) (isColored : Bool) : Command → Run
  | wrap a => runWrap w isColored a
  | extract a => runExtract w isColored a
  | init => runInit w isColored

def Request.answer (w : Workspace) (isColored : Bool) : Request → Run
  | nothing => ⟨w, programHelp, "", true⟩
  | run command => command.run w isColored
  | help text => ⟨w, text, "", true⟩
  | version => ⟨w, versionText, "", true⟩
  | refuse e =>
    ⟨w, "", printed ("error: " ++ e.message) ++ "\n" ++
      printed "For more information, try '--help'.", false⟩

/-- The run of a command line. -/
def runProgram (w : Workspace) (isColored : Bool) (arguments : List String) : Run :=
  (Request.read arguments).answer w isColored

end Localization
