/-!
Options on a command line. They are read one argument after the other; short options may share an
argument, and a value may be attached to its option or follow it. Main definition:
`CommandOption.readAll`.
-/

namespace Localization

/-- What an option takes. -/
inductive OptionKind where
  /-- Nothing; it may stand once. -/
  | flag
  /-- A value; it may stand once. -/
  | value
  /-- One of some values; it may stand once. -/
  | choice (values : List String)
  /-- Values separated by commas; it may stand any number of times. -/
  | values
  /-- Nothing; it asks for the help text. -/
  | help
  /-- Nothing; it asks for the version. -/
  | version
  deriving DecidableEq, Repr

/-- Whether an option takes a value. -/
def OptionKind.takesValue : OptionKind → Bool
  | flag | help | version => false
  | value | choice _ | values => true

structure CommandOption where
  short : Option Char
  long : String
  kind : OptionKind
  about : String
  deriving DecidableEq, Repr

/-- Why a command line is refused. -/
inductive UsageError where
  | unknownArgument (argument : String)
  | unknownCommand (name : String)
  | missingValue (option : String)
  | invalidValue (option value : String)
  /-- A value for an option that takes none. -/
  | unneededValue (option value : String)
  /-- An option that may stand only once. -/
  | repeated (option : String)
  deriving DecidableEq, Repr

def UsageError.message : UsageError → String
  | unknownArgument argument => "unexpected argument '" ++ argument ++ "' found"
  | unknownCommand name => "unrecognized subcommand '" ++ name ++ "'"
  | missingValue option =>
    "a value is required for '--" ++ option ++ "' but none was supplied"
  | invalidValue option value =>
    "invalid value '" ++ value ++ "' for '--" ++ option ++ "'"
  | unneededValue option value =>
    "unexpected value '" ++ value ++ "' for '--" ++ option ++ "' found; no more were expected"
  | repeated option => "the argument '--" ++ option ++ "' cannot be used multiple times"

/-- Why the reading of options ends early. -/
inductive OptionStop where
  | usage (error : UsageError)
  | help
  | version
  deriving DecidableEq, Repr

/-- The options that were given: long names and values. -/
abbrev GivenOptions := List (String × List String)

namespace GivenOptions

def has (given : GivenOptions) (long : String) : Bool :=
  given.any fun g => g.1 == long

def values (given : GivenOptions) (long : String) : List String :=
  given.flatMap fun g => if g.1 = long then g.2 else []

def value? (given : GivenOptions) (long : String) : Option String :=
  (given.values long).head?

end GivenOptions

/-- The options read so far, and the last one if its value may still follow or was not checked yet. -/
structure OptionState where
  given : GivenOptions
  pending : Option (CommandOption × Option String)
  deriving DecidableEq, Repr

namespace OptionState

def empty : OptionState :=
  ⟨[], none⟩

/-- The pieces of a text between its commas; `piece` holds the current one, last character first. -/
def splitCommas (piece : List Char) : List Char → List String
  | [] => [String.ofList piece.reverse]
  | c :: rest =>
    if c = ',' then String.ofList piece.reverse :: splitCommas [] rest
    else splitCommas (c :: piece) rest

/-- Takes up an option with its value. -/
def record (s : OptionState) (o : CommandOption) (value : String) :
    Except OptionStop OptionState :=
  match o.kind with
  | .values => .ok { s with given := s.given ++ [(o.long, splitCommas [] value.toList)] }
  | .choice choices =>
    if s.given.has o.long then .error (.usage (.repeated o.long))
    else if choices.contains value then .ok { s with given := s.given ++ [(o.long, [value])] }
    else .error (.usage (.invalidValue o.long value))
  | _ =>
    if s.given.has o.long then .error (.usage (.repeated o.long))
    else .ok { s with given := s.given ++ [(o.long, [value])] }

/-- Takes up the option that is pending. -/
def settle (s : OptionState) : Except OptionStop OptionState :=
  match s.pending with
  | none => .ok s
  | some (o, none) => .error (.usage (.missingValue o.long))
  | some (o, some value) => OptionState.record ⟨s.given, none⟩ o value

def readFlag (s : OptionState) (o : CommandOption) : Except OptionStop OptionState := do
  let s ← s.settle
  match o.kind with
  | .help => .error .help
  | .version => .error .version
  | _ =>
    if s.given.has o.long then .error (.usage (.repeated o.long))
    else .ok { s with given := s.given ++ [(o.long, [])] }

/-- Reads an option that takes a value, which may be attached. -/
def readValued (s : OptionState) (o : CommandOption) (attached : Option String) :
    Except OptionStop OptionState := do
  let s ← s.settle
  match attached with
  | some value => s.record o value
  | none => .ok { s with pending := some (o, none) }

def readLong (options : List CommandOption) (s : OptionState) (text : List Char) :
    Except OptionStop OptionState :=
  let name := String.ofList (text.takeWhile (· != '='))
  let attached :=
    match text.dropWhile (· != '=') with
    | [] => none
    | _ :: value => some (String.ofList value)
  match options.find? fun o => o.long == name with
  | none => .error (.usage (.unknownArgument ("--" ++ name)))
  | some o =>
    if o.kind.takesValue then s.readValued o attached
    else
      match attached with
      | some value => .error (.usage (.unneededValue o.long value))
      | none => s.readFlag o

def attachedValue : List Char → Option String
  | [] => none
  | '=' :: value => some (String.ofList value)
  | value => some (String.ofList value)

def readShort (options : List CommandOption) (s : OptionState) :
    List Char → Except OptionStop OptionState
  | [] => .ok s
  | c :: rest =>
    match options.find? fun o => o.short == some c with
    | none => .error (.usage (.unknownArgument (String.ofList ['-', c])))
    | some o =>
      if o.kind.takesValue then s.readValued o (attachedValue rest)
      else do
        let s ← s.readFlag o
        s.readShort options rest

/-- Reads an argument that is no option: the value that is still missing, or one too many. -/
def readPlain (s : OptionState) (argument : String) : Except OptionStop OptionState :=
  match s.pending with
  | some (o, none) => .ok { s with pending := some (o, some argument) }
  | _ => .error (.usage (.unknownArgument argument))

def readArgument (options : List CommandOption) (s : OptionState) (argument : String) :
    Except OptionStop OptionState :=
  match argument.toList with
  | '-' :: '-' :: text => s.readLong options text
  | '-' :: c :: text => s.readShort options (c :: text)
  | _ => s.readPlain argument

end OptionState

/-- Reads arguments. Behind two hyphens alone every argument is one too many. -/
def CommandOption.readFrom (options : List CommandOption) (s : OptionState) :
    List String → Except OptionStop GivenOptions
  | [] => do
    let s ← s.settle
    .ok s.given
  | argument :: rest =>
    if argument = "--" then
      match rest with
      | [] => do
        let s ← s.settle
        .ok s.given
      | extra :: _ => .error (.usage (.unknownArgument extra))
    else do
      let s ← s.readArgument options argument
      CommandOption.readFrom options s rest

def CommandOption.readAll (options : List CommandOption) (arguments : List String) :
    Except OptionStop GivenOptions :=
  CommandOption.readFrom options .empty arguments

end Localization
