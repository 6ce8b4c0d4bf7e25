import Localization.Tree.Basic
import Localization.Tree.Path

/-!
A file tree seen from a current directory. Paths are followed through links; files are read and
written, and directories are made.
-/

namespace Localization

inductive FileError where
  | notFound
  | alreadyExists
  | notDirectory
  | isDirectory
  | nameTooLong
  | tooManyLinks
  /-- A path with a zero character. -/
  | zeroInPath
  /-- A file that does not hold a text. -/
  | notText
  deriving DecidableEq, Repr

def FileError.message : FileError → String
  | notFound => "No such file or directory (os error 2)"
  | alreadyExists => "File exists (os error 17)"
  | notDirectory => "Not a directory (os error 20)"
  | isDirectory => "Is a directory (os error 21)"
  | nameTooLong => "File name too long (os error 36)"
  | tooManyLinks => "Too many levels of symbolic links (os error 40)"
  | zeroInPath => "file name contained an unexpected NUL byte"
  | notText => "stream did not contain valid UTF-8"

structure Workspace where
  tree : FileTree
  current : Location
  deriving Repr, Inhabited

namespace Workspace

/-- The pieces of a path that are not empty. -/
def steps (path : String) : List String :=
  (Path.pieces path).filter fun p => !p.isEmpty

/-- Whether a path ends with a slash, so that it can only name a directory. -/
def endsWithSlash (path : String) : Bool :=
  path.toList.getLast? == some '/'

/-- The steps of a path that names something to be looked at. -/
def stepsTo (path : String) : List String :=
  if endsWithSlash path then steps path ++ ["."] else steps path

def nameLimit : Nat := 255

/-- The number of links that are followed on one path. -/
def linkLimit : Nat := 40

/-- Goes from one place to another, a step at a time. At a link, `follow` goes on from a place with the
target of the link and the steps behind it. -/
def walk (tree : FileTree) (follow : Location → List String → Except FileError Location) :
    Location → List String → Except FileError Location
  | place, [] => .ok place
  | place, name :: rest =>
    match tree.at? place with
    | some (.directory entries) =>
      if name = "." then walk tree follow place rest
      else if name = ".." then walk tree follow place.dropLast rest
      else if nameLimit < name.utf8ByteSize then .error .nameTooLong
      else
        match entries.lookup name with
        | none => .error .notFound
        | some (.link target) =>
          follow (if Path.isAbsolute target then [] else place) (stepsTo target ++ rest)
        -- a file fails at the next step, if there is one
        | some _ => walk tree follow (place ++ [name]) rest
    | some _ => .error .notDirectory
    | none => .error .notFound

/-- Goes from one place to another through at most a number of links. -/
def resolve (tree : FileTree) : Nat → Location → List String → Except FileError Location
  | 0 => walk tree fun _ _ => .error .tooManyLinks
  | links + 1 => walk tree (resolve tree links)

def start (w : Workspace) (path : String) : Location :=
  if Path.isAbsolute path then [] else w.current

/-- Refuses paths that name nothing at all. -/
def checked (path : String) : Except FileError Unit :=
  if path.toList.contains '\x00' then .error .zeroInPath
  else if path.isEmpty then .error .notFound
  else .ok ()

/-- The place that a path leads to. -/
def locate (w : Workspace) (path : String) : Except FileError Location := do
  checked path
  resolve w.tree linkLimit (w.start path) (stepsTo path)

def find? (w : Workspace) (path : String) : Option FileTree := do
  let place ← (w.locate path).toOption
  w.tree.at? place

def «exists» (w : Workspace) (path : String) : Bool :=
  (w.find? path).isSome

def hasDirectory (w : Workspace) (path : String) : Bool :=
  (w.find? path).any FileTree.isDirectory

/-- What stands at the end of a path; a link there is not followed unless a slash is behind it. -/
def entry? (w : Workspace) (path : String) : Option FileTree := do
  (checked path).toOption
  let steps := stepsTo path
  match steps.getLast? with
  | none => w.find? path
  | some name =>
    if name = "." ∨ name = ".." then w.find? path
    else
      let parent ← (resolve w.tree linkLimit (w.start path) steps.dropLast).toOption
      w.tree.at? (parent ++ [name])

def readText (w : Workspace) (path : String) : Except FileError (List Char) := do
  let place ← w.locate path
  match w.tree.at? place with
  | some (.file (.text chars)) => .ok chars
  | some (.file (.bytes _)) => .error .notText
  | some (.directory _) => .error .isDirectory
  | _ => .error .notFound

/-- Goes to the place to which a file is written, a step at a time. A link at the end is followed too, and
nothing needs to stand at the place yet; `isSlashed` tells whether a slash is behind the last step. -/
def walkToFile (tree : FileTree)
    (follow : Location → List String → Bool → Except FileError Location) (isSlashed : Bool) :
    Location → List String → Except FileError Location
  | _, [] => .error .isDirectory
  | place, [name] =>
    match tree.at? place with
    | some (.directory entries) =>
      if isSlashed || name = "." || name = ".." then .error .isDirectory
      else if nameLimit < name.utf8ByteSize then .error .nameTooLong
      else
        match entries.lookup name with
        | some (.directory _) => .error .isDirectory
        -- from here on it is a slash behind the target that counts
        | some (.link target) =>
          follow (if Path.isAbsolute target then [] else place) (steps target) (endsWithSlash target)
        | _ => .ok (place ++ [name])
    | some _ => .error .notDirectory
    | none => .error .notFound
  | place, name :: rest =>
    match tree.at? place with
    | some (.directory entries) =>
      if name = "." then walkToFile tree follow isSlashed place rest
      else if name = ".." then walkToFile tree follow isSlashed place.dropLast rest
      else if nameLimit < name.utf8ByteSize then .error .nameTooLong
      else
        match entries.lookup name with
        | none => .error .notFound
        | some (.link target) =>
          follow (if Path.isAbsolute target then [] else place) (stepsTo target ++ rest) isSlashed
        | some _ => walkToFile tree follow isSlashed (place ++ [name]) rest
    | some _ => .error .notDirectory
    | none => .error .notFound

/-- Goes to the place to which a file is written through at most a number of links. -/
def resolveToFile (tree : FileTree) :
    Nat → Location → List String → Bool → Except FileError Location
  | 0, place, steps, isSlashed =>
    walkToFile tree (fun _ _ _ => .error .tooManyLinks) isSlashed place steps
  | links + 1, place, steps, isSlashed =>
    walkToFile tree (resolveToFile tree links) isSlashed place steps

/-- The place to which a file is written that is reached from `place` by `path`. -/
def placeToWrite (tree : FileTree) (links : Nat) (place : Location) (path : String) :
    Except FileError Location :=
  resolveToFile tree links place (steps path) (endsWithSlash path)

def writeText (w : Workspace) (path : String) (text : List Char) : Except FileError Workspace := do
  checked path
  let place ← placeToWrite w.tree linkLimit (w.start path) path
  .ok { w with tree := w.tree.put place (.file (.text text)) }

def makeDirectory (w : Workspace) (path : String) : Except FileError Workspace := do
  checked path
  let parts := steps path
  let parent ← resolve w.tree linkLimit (w.start path) parts.dropLast
  match parts.getLast?, w.tree.at? parent with
  | none, _ => .error .alreadyExists
  | some name, some (.directory entries) =>
    if name = "." ∨ name = ".." then .error .alreadyExists
    else if nameLimit < name.utf8ByteSize then .error .nameTooLong
    else if (entries.lookup name).isSome then .error .alreadyExists
    else .ok { w with tree := w.tree.put (parent ++ [name]) .empty }
  | some _, _ => .error .notDirectory

/-- Makes a directory; that it is there already is no error. -/
def ensureDirectory (w : Workspace) (path : String) : Except FileError Workspace :=
  match w.makeDirectory path with
  | .error .alreadyExists => if w.hasDirectory path then .ok w else .error .alreadyExists
  | result => result

/-- Makes a directory and those above it that are missing; `depth` bounds how many there are. -/
def ensureDirectories (w : Workspace) : Nat → String → Except FileError Workspace
  | 0, _ => .ok w
  | depth + 1, path =>
    match Path.parent? path with
    | none => .ok w
    | some parent =>
      match w.ensureDirectory path with
      | .error .notFound => do
        let above ← w.ensureDirectories depth parent
        above.ensureDirectory path
      | result => result

def makeDirectories (w : Workspace) (path : String) : Except FileError Workspace :=
  w.ensureDirectories (path.length + 1) path

/-- The current directory as a path. -/
def currentPath (w : Workspace) : String :=
  Location.path w.current

end Workspace

end Localization
