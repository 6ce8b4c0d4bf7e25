import Localization.Failure
import Localization.Text.Order

/-!
Selection of files by a pattern. A pattern with a brace group stands for the patterns in which the group is
replaced by one of its alternatives. Groups may be nested, and alternatives may be empty. Every alternative
of the pattern names a directory to start from, as far as its names are plain, and a glob that the files
below have to match. Main definitions: `Brace.expand`, `selectFiles`.
-/

namespace Localization.Brace

/-- The alternatives of a group and what stands behind it, read from behind its opening brace. There
are `depth` more braces open; `piece` holds the characters of the current alternative, last first. -/
def groupFrom (depth : Nat) (piece : List Char) :
    List Char → Option (List (List Char) × List Char)
  | [] => none
  | c :: rest =>
    if c = '\x7b' then groupFrom (depth + 1) (c :: piece) rest
    else if c = '\x7d' then
      match depth with
      | 0 => some ([piece.reverse], rest)
      | outer + 1 => groupFrom outer (c :: piece) rest
    else if c = ',' ∧ depth = 0 then do
      let (others, after) ← groupFrom 0 [] rest
      some (piece.reverse :: others, after)
    else groupFrom depth (c :: piece) rest

/-- The alternatives of a group and what stands behind it, read from behind its opening brace; `none`
if the group is not closed. -/
def group? (cs : List Char) : Option (List (List Char) × List Char) :=
  groupFrom 0 [] cs

/-- Replaces at most a number of groups, the first one first. -/
def expandGroups : Nat → List Char → List (List Char)
  | 0, pattern => [pattern]
  | groups + 1, pattern =>
    let literal := pattern.takeWhile (· != '\x7b')
    match pattern.dropWhile (· != '\x7b') with
    | [] => [pattern]
    | _ :: inside =>
      match group? inside with
      | none => [pattern]
      | some (alternatives, after) =>
        -- groups inside the alternative are replaced together with those behind it
        alternatives.flatMap fun alternative =>
          (expandGroups groups (alternative ++ after)).map (literal ++ ·)

/-- The patterns without groups that a pattern stands for. From an opening brace on that is never
closed, a pattern stands for itself. -/
def expand (pattern : List Char) : List (List Char) :=
  expandGroups (pattern.count '\x7b') pattern

end Localization.Brace

namespace Localization

/-- Drops a current directory in front of a pattern. -/
def withoutCurrent : List Char → List Char
  | '.' :: '/' :: rest => rest
  | cs => cs

def alternativesOf (pattern : String) : List (List Char) :=
  (Brace.expand pattern.toList).map withoutCurrent

def globsOf (pattern : String) : Except Failure (List Glob) :=
  (alternativesOf pattern).mapM fun cs =>
    (Glob.parse? cs).mapError fun f => ⟨[.compilingPattern pattern], .glob f⟩

/-- Directories that are not looked into. -/
def isSkipped (name : String) : Bool :=
  name == "node_modules" || name == ".git"

/-- Whether a name in a pattern may stand for several names. -/
def hasWildcard (name : String) : Bool :=
  name.toList.any fun c => c == '*' || c == '?' || c == '['

/-- The parts of a pattern before the first one with a wildcard; the last one never counts. -/
def plainParts : List Path.Part → List Path.Part
  | [] | [_] => []
  | part :: rest => if hasWildcard part.text then [] else part :: plainParts rest

/-- The directory from which the files of a glob are looked for. -/
def Glob.startPath (g : Glob) : String :=
  (plainParts (Path.parts (String.ofList g.text))).foldl (fun p part => Path.join p part.text) ""

def lastName (path : String) : String :=
  (Path.fileName? path).getD path

/-- The places of the files at or below a path, seen from there. A link at the end of the path is
followed, but a file behind it does not count. -/
def Workspace.filesBelow (w : Workspace) (path : String) : List Location :=
  match w.entry? path with
  | none => []
  | some (.link _) =>
    match w.find? path with
    | some (.directory entries) => FileTree.entryFiles isSkipped entries
    | _ => []
  | some (.directory entries) =>
    if isSkipped (lastName path) then [] else FileTree.entryFiles isSkipped entries
  | some (.file _) => [[]]

/-- The path under which a file is matched, if there is one: as it is for an absolute pattern, and seen
from the base directory otherwise. -/
def Glob.candidate? (g : Glob) (base file : List Path.Part) : Option String :=
  if g.text.head? = some '/' then some (Path.render file)
  else (Path.relativeParts? base file).map Path.render

def Glob.select (g : Glob) (w : Workspace) (base : String) : List String :=
  let start := Path.join base g.startPath
  if w.exists start then
    ((w.filesBelow start).filterMap fun place =>
      g.candidate? (Path.parts base) (Path.parts start ++ place.map .name)).filter g.accepts
  else []

/-- The files that a pattern selects below a base directory, in order and each once. -/
def selectFiles (w : Workspace) (base pattern : String) : Except Failure (List String) := do
  let globs ← globsOf pattern
  .ok (Text.sortedSet (globs.flatMap fun g => g.select w base))

end Localization
