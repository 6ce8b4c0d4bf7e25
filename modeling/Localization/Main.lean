import Localization.Command.Places
import Localization.Command.Run

/-!
The program. What a run looks at is loaded into a file tree; the run itself is a function on that tree,
and the files that it changed are written afterwards.
-/

open Localization

namespace Localization.Loading

/-- The place of a path that is free of links. -/
def placeOf (path : String) : Location :=
  Workspace.steps path

/-- Takes a file into a tree. A file that cannot be read counts as one without a text. -/
def loadFile (tree : FileTree) (place : Location) : IO FileTree := do
  let contents ←
    try
      pure (Contents.ofBytes (← IO.FS.readBinFile (Location.path place)))
    catch _ => pure (.bytes [])
  return tree.put place (.file contents)

def loadDirectory (tree : FileTree) (place : Location) : FileTree :=
  if (tree.at? place).isSome then tree else tree.put place .empty

/-- Takes a link into a tree, and the file behind it. A link to nothing is left out. -/
def loadLink (tree : FileTree) (place : Location) : IO FileTree := do
  try
    let target ← IO.FS.realPath (Location.path place)
    let linked := tree.put place (.link target.toString)
    if (← target.metadata).type == .file then loadFile linked (placeOf target.toString)
    else return loadDirectory linked (placeOf target.toString)
  catch _ => return tree

/-- Takes what stands at the end of a path into a tree, and every directory and link on the way. -/
def loadPath (tree : FileTree) (path : String) : IO FileTree := do
  let pieces := Workspace.steps path
  let mut tree := tree
  for n in [0:pieces.length] do
    let name := pieces.getD n ""
    if name != "." && name != ".." then
      try
        let above ← IO.FS.realPath (Location.path (pieces.take n))
        let place := placeOf above.toString ++ [name]
        match (← (above / name).symlinkMetadata).type with
        | .dir => tree := loadDirectory tree place
        | .file => tree ← loadFile tree place
        | .symlink => tree ← loadLink tree place
        | .other => pure ()
      catch _ => pure ()
  return tree

/-- Takes everything below a directory into a tree, apart from what is never looked into. -/
partial def loadBelow (tree : FileTree) (place : Location) : IO FileTree := do
  let directory ← IO.FS.realPath (Location.path place)
  let mut tree := tree
  for entry in ← directory.readDir do
    let inner := place ++ [entry.fileName]
    match (← entry.path.symlinkMetadata).type with
    | .dir =>
      tree := loadDirectory tree inner
      if !isSkipped entry.fileName then tree ← loadBelow tree inner
    | .file => tree ← loadFile tree inner
    | .symlink => tree ← loadLink tree inner
    | .other => pure ()
  return tree

def loadPlaces (tree : FileTree) (places : Places) : IO FileTree := do
  let mut tree := tree
  for path in places.files do
    tree ← loadPath tree path
  for path in places.searched do
    tree ← loadPath tree path
    try
      let directory ← IO.FS.realPath path
      tree ← loadBelow tree (placeOf directory.toString)
    catch _ => pure ()
  return tree

/-- Writes the files in which a tree differs from an earlier one. -/
def storeChanges (before after : FileTree) : IO Unit := do
  for (place, contents) in after.contents do
    if before.at? place matches some (.file _) && before.contents.lookup place == some contents then
      pure ()
    else
      match contents with
      | .bytes _ => pure ()
      | .text chars =>
        IO.FS.createDirAll (Location.path place.dropLast)
        IO.FS.writeFile (Location.path place) (String.ofList chars)

def isColored : IO Bool := do
  if (← IO.getEnv "NO_COLOR").isSome then return false
  (← IO.getStdout).isTty

end Localization.Loading

open Localization.Loading

def main (arguments : List String) : IO UInt32 := do
  let current ← IO.FS.realPath (← IO.currentDir)
  let place := placeOf current.toString
  let request := Request.read arguments
  let start : Workspace := ⟨loadDirectory .empty place, place⟩
  let configured ← loadPlaces start.tree (Places.ofConfig start)
  let tree ← loadPlaces configured (Places.ofRequest { start with tree := configured } request)
  let run := request.answer { start with tree := tree } (← isColored)
  storeChanges tree run.workspace.tree
  IO.print run.output
  IO.eprint run.errors
  return UInt32.ofNat run.status
