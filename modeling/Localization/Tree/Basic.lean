import Localization.OrderedMap

/-!
File trees: directories, files and symbolic links as one value. A place in a tree is the list of the
names that lead to it.
-/

namespace Localization

inductive Contents where
  | text (chars : List Char)
  /-- Bytes that are not the UTF-8 form of a text. -/
  | bytes (octets : List UInt8)
  deriving DecidableEq, Repr, Inhabited

def Contents.ofBytes (octets : ByteArray) : Contents :=
  match String.fromUTF8? octets with
  | some s => text s.toList
  | none => bytes octets.toList

inductive FileTree where
  | file (contents : Contents)
  | link (target : String)
  /-- Each name stands once. -/
  | directory (entries : List (String × FileTree))
  deriving Repr, Inhabited

/-- The names that lead from the root of a tree to a place in it. -/
abbrev Location := List String

def Location.path (place : Location) : String :=
  match place with
  | [] => "/"
  | names => String.join (names.map ("/" ++ ·))

namespace FileTree

def empty : FileTree :=
  directory []

def isDirectory : FileTree → Bool
  | directory _ => true
  | _ => false

/-- What stands at a place; links are not followed. -/
def at? : FileTree → Location → Option FileTree
  | t, [] => some t
  | directory entries, name :: rest =>
    match entries.lookup name with
    | some t => at? t rest
    | none => none
  | _, _ :: _ => none

/-- Puts something at a place, of which the directories are there. -/
def put : FileTree → Location → FileTree → FileTree
  | _, [], new => new
  | directory entries, name :: rest, new =>
    let inner := put ((entries.lookup name).getD empty) rest new
    directory (OrderedMap.insertEntry name inner entries)
  | t, _ :: _, _ => t

mutual

/-- The places of the files in a tree, apart from those in directories with a name to be skipped. Links
are not followed. -/
def filesOutside (skips : String → Bool) : FileTree → List Location
  | file _ => [[]]
  | link _ => []
  | directory entries => entryFiles skips entries

def entryFiles (skips : String → Bool) : List (String × FileTree) → List Location
  | [] => []
  | (name, t) :: rest =>
    (if t.isDirectory && skips name then [] else (filesOutside skips t).map (name :: ·)) ++
      entryFiles skips rest

end

mutual

def contents : FileTree → List (Location × Contents)
  | file c => [([], c)]
  | link _ => []
  | directory entries => entryContents entries

def entryContents : List (String × FileTree) → List (Location × Contents)
  | [] => []
  | (name, t) :: rest =>
    (contents t).map (fun f => (name :: f.1, f.2)) ++ entryContents rest

end

end FileTree

end Localization
