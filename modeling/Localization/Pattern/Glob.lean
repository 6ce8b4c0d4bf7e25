/-!
Globs: patterns for paths. A question mark stands for one character and an asterisk for any number of
them within one name; brackets list characters, and two asterisks as a whole name stand for any number
of directories. Main definitions: `Glob.parse?` and `Glob.accepts`.
-/

namespace Localization

/-- Characters in brackets: from a first to a last one. -/
structure Glob.Range where
  first : Char
  last : Char
  deriving DecidableEq, Repr

/-- A part of a glob. -/
inductive Glob.Part where
  | literal (c : Char)
  | anyCharacter
  | oneOf (ranges : List Glob.Range)
  | noneOf (ranges : List Glob.Range)
  /-- Any characters of one name. -/
  | anyName
  /-- Any directories, with a slash behind each of them; at the end, anything. -/
  | anyDirectories
  deriving DecidableEq, Repr

/-- A glob: its text and its parts. -/
structure Glob where
  text : List Char
  parts : List Glob.Part
  deriving DecidableEq, Repr

namespace Glob

inductive Mistake where
  /-- More than two asterisks in a row. -/
  | wildcards
  /-- Two asterisks that are not a whole name. -/
  | recursiveWildcard
  /-- A bracket that is not closed or holds nothing. -/
  | range
  deriving DecidableEq, Repr

/-- A mistake and its place, as a number of characters. -/
structure Fault where
  position : Nat
  mistake : Mistake
  deriving DecidableEq, Repr

def Mistake.message : Mistake → String
  | wildcards => "wildcards are either regular \x60*\x60 or recursive \x60**\x60"
  | recursiveWildcard => "recursive wildcards must form a single path component"
  | range => "invalid range pattern"

def Fault.message (f : Fault) : String :=
  "Pattern syntax error near position " ++ toString f.position ++ ": " ++ f.mistake.message

/-- The ranges that the characters in brackets write. -/
def ranges : List Char → List Range
  | a :: '-' :: b :: rest => ⟨a, b⟩ :: ranges rest
  | a :: rest => ⟨a, a⟩ :: ranges rest
  | [] => []

/-- The characters up to a closing bracket, of which the first one may be such a bracket itself, and
what stands behind. -/
def bracketed? : List Char → Option (List Char × List Char)
  | [] => none
  | first :: rest =>
    match rest.dropWhile (· != ']') with
    | [] => none
    | _ :: after => some (first :: rest.takeWhile (· != ']'), after)

/-- The part that a bracket begins, and what stands behind it. -/
def bracket? : List Char → Option (Part × List Char)
  | '!' :: rest => (bracketed? rest).map fun (inside, after) => (.noneOf (ranges inside), after)
  | rest => (bracketed? rest).map fun (inside, after) => (.oneOf (ranges inside), after)

/-- The parts of the pattern from `position` on; `atName` tells whether a name begins there. At most
`fuel` parts are read. -/
def parseFrom : Nat → Nat → Bool → List Char → Except Fault (List Part)
  | 0, _, _, _ => .ok []
  | _ + 1, _, _, [] => .ok []
  | fuel + 1, position, atName, c :: rest =>
    if c = '?' then (.anyCharacter :: ·) <$> parseFrom fuel (position + 1) false rest
    else if c = '*' then
      match rest with
      | '*' :: '*' :: _ => .error ⟨position + 2, .wildcards⟩
      | '*' :: after =>
        if atName then
          match after with
          | [] => .ok [.anyDirectories]
          | '/' :: behind => (.anyDirectories :: ·) <$> parseFrom fuel (position + 3) true behind
          | _ => .error ⟨position + 2, .recursiveWildcard⟩
        -- the fault is placed at the character in front of the asterisks
        else .error ⟨position - 1, .recursiveWildcard⟩
      | _ => (.anyName :: ·) <$> parseFrom fuel (position + 1) false rest
    else if c = '[' then
      match bracket? rest with
      | none => .error ⟨position, .range⟩
      | some (part, after) =>
        (part :: ·) <$> parseFrom fuel (position + 1 + (rest.length - after.length)) false after
    else (.literal c :: ·) <$> parseFrom fuel (position + 1) (c = '/') rest

def parse? (pattern : List Char) : Except Fault Glob := do
  let parts ← parseFrom (pattern.length + 1) 0 true pattern
  .ok ⟨pattern, parts⟩

def inRanges (c : Char) (rs : List Range) : Bool :=
  rs.any fun r => r.first ≤ c && c ≤ r.last

/-- Whether a part stands for a single character. -/
def Part.acceptsChar : Part → Char → Bool
  | literal d, c => c = d
  | anyCharacter, c => c != '/'
  | oneOf rs, c => c != '/' && inRanges c rs
  | noneOf rs, c => c != '/' && !inRanges c rs
  | _, _ => false

/-- Whether a text is accepted behind some characters that are not slashes. -/
def afterName (accepts : List Char → Bool) : List Char → Bool
  | [] => accepts []
  | c :: rest => accepts (c :: rest) || (c != '/' && afterName accepts rest)

/-- Whether a text is accepted behind one of its slashes. -/
def afterSlash (accepts : List Char → Bool) : List Char → Bool
  | [] => false
  | c :: rest => (c = '/' && accepts rest) || afterSlash accepts rest

/-- Whether some parts stand for a whole text. -/
def acceptsParts : List Part → List Char → Bool
  | [], text => text.isEmpty
  | .anyName :: rest, text => afterName (acceptsParts rest) text
  | .anyDirectories :: rest, text =>
    rest.isEmpty || acceptsParts rest text || afterSlash (acceptsParts rest) text
  | _ :: _, [] => false
  | part :: rest, c :: text => part.acceptsChar c && acceptsParts rest text

/-- Whether a glob stands for a path. -/
def accepts (g : Glob) (path : String) : Bool :=
  acceptsParts g.parts path.toList

end Glob

end Localization
