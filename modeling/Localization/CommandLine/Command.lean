import Localization.CommandLine.Option
import Localization.Config.Basic

/-!
The commands, their options and their help texts. Main definition: `Request.read`.
-/

namespace Localization

structure CommandSpec where
  name : String
  about : String
  options : List CommandOption
  deriving DecidableEq, Repr

def programName : String :=
  "i18nexus"

def programVersion : String :=
  "0.1.0"

def programAbout : String :=
  "A fast CLI tool for wrapping hardcoded text in React components and extracting translation keys"

def helpOption : CommandOption :=
  ⟨some 'h', "help", .help, "Print help"⟩

def versionOption : CommandOption :=
  ⟨some 'V', "version", .version, "Print version"⟩

/-- A default as it stands in a help text. -/
def withDefault (about default : String) : String :=
  about ++ " [default: " ++ default ++ "]"

def patternOption : CommandOption :=
  ⟨some 'p', "pattern", .value, withDefault "Source file glob, braces allowed" defaultPattern⟩

def verboseOption : CommandOption :=
  ⟨some 'v', "verbose", .flag, "Enable verbose output"⟩

def wrapSpec : CommandSpec where
  name := "wrap"
  about := "Wrap hardcoded text in React components with t() calls"
  options :=
    [ patternOption,
      ⟨some 'g', "generate-keys", .flag,
        "Generate camelCase keys instead of using the text as the key"⟩,
      ⟨some 'n', "namespace", .value,
        "Namespace passed to useTranslation() and used as the key file name"⟩,
      ⟨some 'e', "english", .flag, "Also wrap English text"⟩,
      ⟨none, "no-korean", .flag, "Do not wrap Korean text"⟩,
      ⟨none, "text-regex", .value,
        "Custom regex for translatable text (overrides --english/--no-korean)"⟩,
      ⟨none, "import-source", .value,
        withDefault "Module that provides useTranslation" defaultImportSource⟩,
      ⟨none, "key-prefix", .value,
        "Prefix for generated keys (\x60<prefix>.<key>\x60)"⟩,
      ⟨some 'o', "output-dir", .value,
        withDefault "Directory for the generated key file" defaultOutputDirectory⟩,
      ⟨some 'd', "dry-run", .flag, "Show what would change without writing files"⟩,
      verboseOption,
      helpOption ]

def extractSpec : CommandSpec where
  name := "extract"
  about := "Extract t() keys into translation files"
  options :=
    [ patternOption,
      ⟨some 'o', "output", .value,
        "Output file name. JSON defaults to one file per language, CSV to " ++
          Renderer.defaultSheetName⟩,
      ⟨some 'd', "output-dir", .value, withDefault "Output directory" defaultOutputDirectory⟩,
      ⟨some 'f', "format", .choice (OutputFormat.choices.map Prod.fst), "Output format"⟩,
      ⟨some 'l', "languages", .values,
        withDefault "Comma-separated languages for JSON output" "en,ko"⟩,
      ⟨some 'n', "namespace", .value,
        "Write \x60<lang>/<namespace>.json\x60, or \x60<namespace>.json\x60 for a single language"⟩,
      ⟨none, "no-merge", .flag,
        "Overwrite dictionaries instead of merging with existing files"⟩,
      ⟨none, "no-sort", .flag, "Keep keys in the order they were found"⟩,
      ⟨none, "line-numbers", .flag, "Show line numbers in the key listing"⟩,
      ⟨none, "file-paths", .flag, "Show file paths in the key listing"⟩,
      ⟨none, "dry-run", .flag, "Preview output without writing files"⟩,
      verboseOption,
      helpOption ]

def initSpec : CommandSpec where
  name := "init"
  about := "Initialize a new .i18nexusrc.json configuration file"
  options := [helpOption]

/-- The commands that do something. -/
def commandSpecs : List CommandSpec :=
  [wrapSpec, extractSpec, initSpec]

/-- The name of the command that shows help texts, and what it does. -/
def helpCommand : String × String :=
  ("help", "Print this message or the help of the given subcommand(s)")

/-! ## Help texts -/

/-- A text made longer by blanks. -/
def padded (width : Nat) (text : String) : String :=
  text ++ String.ofList (List.replicate (width - text.length) ' ')

def twoColumns (rows : List (String × String)) : String :=
  let width := (rows.map fun r => r.1.length).foldl max 0
  String.join (rows.map fun r => "  " ++ padded width r.1 ++ "  " ++ r.2 ++ "\n")

/-- The name of a value in a help text: the option in upper case, with underscores. -/
def valueName (long : String) : String :=
  String.ofList (long.toList.map fun c => if c = '-' then '_' else c.toUpper)

def CommandOption.usage (o : CommandOption) : String :=
  let short :=
    match o.short with
    | some c => String.ofList ['-', c, ',', ' ']
    | none => "    "
  short ++ "--" ++ o.long ++
    (if o.kind.takesValue then " <" ++ valueName o.long ++ ">" else "")

/-- What a help text says about an option. -/
def CommandOption.details (o : CommandOption) : String :=
  match o.kind with
  | .choice values =>
    o.about ++ " [possible values: " ++ String.intercalate ", " values ++ "]"
  | _ => o.about

def optionHelp (options : List CommandOption) : String :=
  "Options:\n" ++ twoColumns (options.map fun o => (o.usage, o.details))

def CommandSpec.helpText (c : CommandSpec) : String :=
  c.about ++ "\n\nUsage: " ++ programName ++ " " ++ c.name ++
    (if c.options.length = 1 then "" else " [OPTIONS]") ++ "\n\n" ++ optionHelp c.options

def programHelp : String :=
  programAbout ++ "\n\nUsage: " ++ programName ++ " [COMMAND]\n\nCommands:\n" ++
    twoColumns (commandSpecs.map (fun c => (c.name, c.about)) ++ [helpCommand]) ++ "\n" ++
    optionHelp [helpOption, versionOption]

def helpCommandHelp : String :=
  helpCommand.2 ++ "\n\nUsage: " ++ programName ++ " " ++ helpCommand.1 ++
    " [COMMAND]...\n\nArguments:\n" ++
    twoColumns [("[COMMAND]...", "Print help for the subcommand(s)")]

def versionText : String :=
  programName ++ " " ++ programVersion ++ "\n"

/-! ## Arguments -/

/-- The command line of the command that wraps texts. -/
structure WrapArguments where
  pattern : Option String := none
  generateKeys : Bool := false
  space : Option String := none
  english : Bool := false
  noKorean : Bool := false
  textPattern : Option String := none
  importSource : Option String := none
  keyPrefix : Option String := none
  outputDirectory : Option String := none
  isDryRun : Bool := false
  isVerbose : Bool := false
  deriving DecidableEq, Repr, Inhabited

/-- The command line of the command that extracts keys. -/
structure ExtractArguments where
  pattern : Option String := none
  outputFile : Option String := none
  outputDirectory : Option String := none
  format : Option OutputFormat := none
  languages : List String := []
  space : Option String := none
  noMerge : Bool := false
  noSort : Bool := false
  lineNumbers : Bool := false
  filePaths : Bool := false
  isDryRun : Bool := false
  isVerbose : Bool := false
  deriving DecidableEq, Repr, Inhabited

def WrapArguments.ofGiven (g : GivenOptions) : WrapArguments where
  pattern := g.value? "pattern"
  generateKeys := g.has "generate-keys"
  space := g.value? "namespace"
  english := g.has "english"
  noKorean := g.has "no-korean"
  textPattern := g.value? "text-regex"
  importSource := g.value? "import-source"
  keyPrefix := g.value? "key-prefix"
  outputDirectory := g.value? "output-dir"
  isDryRun := g.has "dry-run"
  isVerbose := g.has "verbose"

def ExtractArguments.ofGiven (g : GivenOptions) : ExtractArguments where
  pattern := g.value? "pattern"
  outputFile := g.value? "output"
  outputDirectory := g.value? "output-dir"
  format := (g.value? "format").bind fun name => OutputFormat.choices.lookup name
  languages := g.values "languages"
  space := g.value? "namespace"
  noMerge := g.has "no-merge"
  noSort := g.has "no-sort"
  lineNumbers := g.has "line-numbers"
  filePaths := g.has "file-paths"
  isDryRun := g.has "dry-run"
  isVerbose := g.has "verbose"

inductive Command where
  | wrap (arguments : WrapArguments)
  | extract (arguments : ExtractArguments)
  | init
  deriving DecidableEq, Repr

def Command.isVerbose : Command → Bool
  | wrap arguments => arguments.isVerbose
  | extract arguments => arguments.isVerbose
  | init => false

/-- What a command line asks for. -/
inductive Request where
  /-- Nothing; the help text is shown. -/
  | nothing
  | run (command : Command)
  | help (text : String)
  | version
  | refuse (error : UsageError)
  deriving DecidableEq, Repr

namespace Request

/-- What the help command is asked for. -/
def ofHelp : List String → Request
  | [] => help programHelp
  | name :: rest =>
    if name = helpCommand.1 then
      match rest with
      | [] => help helpCommandHelp
      | next :: _ => refuse (.unknownCommand next)
    else
      match commandSpecs.find? fun c => c.name == name, rest with
      | some c, [] => help c.helpText
      | some _, next :: _ => refuse (.unknownCommand next)
      | none, _ => refuse (.unknownCommand name)

/-- The request of a command with a command line of its own. -/
def ofCommand (c : CommandSpec) (make : GivenOptions → Command) (arguments : List String) :
    Request :=
  match CommandOption.readAll c.options arguments with
  | .ok given => run (make given)
  | .error .help => help c.helpText
  | .error .version => version
  | .error (.usage e) => refuse e

def isCommand (name : String) : Bool :=
  name == helpCommand.1 || commandSpecs.any fun c => c.name == name

/-- The request of an argument in front of which no command stands. -/
def ofOption (argument : String) : Request :=
  match argument.toList with
  | '-' :: _ :: _ =>
    match OptionState.empty.readArgument [helpOption, versionOption] argument with
    | .error .help => help programHelp
    | .error .version => version
    | .error (.usage e) => refuse e
    | .ok _ => nothing
  | _ => refuse (.unknownCommand argument)

def read : List String → Request
  | [] => nothing
  | first :: rest =>
    if first = "wrap" then ofCommand wrapSpec (fun g => .wrap (.ofGiven g)) rest
    else if first = "extract" then ofCommand extractSpec (fun g => .extract (.ofGiven g)) rest
    else if first = "init" then ofCommand initSpec (fun _ => .init) rest
    else if first = helpCommand.1 then ofHelp rest
    else if first = "--" then
      match rest with
      | [] => nothing
      | name :: _ =>
        if isCommand name then refuse (.unknownArgument name) else refuse (.unknownCommand name)
    else ofOption first

end Request

end Localization
