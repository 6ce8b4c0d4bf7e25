/-!
Paths as text: names divided by slashes. A path that begins with a slash is absolute; repeated slashes
and single dots inside a path do not matter.
-/

namespace Localization.Path

/-- Splits a text at every slash; `piece` holds the characters since the last one, last first. -/
def splitFrom (piece : List Char) : List Char → List (List Char)
  | [] => [piece.reverse]
  | c :: rest => if c = '/' then piece.reverse :: splitFrom [] rest else splitFrom (c :: piece) rest

def pieces (path : String) : List String :=
  (splitFrom [] path.toList).map String.ofList

def isAbsolute (path : String) : Bool :=
  path.toList.head? == some '/'

inductive Part where
  | root
  | current
  | parent
  | name (text : String)
  deriving DecidableEq, Repr, Inhabited

def Part.text : Part → String
  | .root => "/"
  | .current => "."
  | .parent => ".."
  | .name text => text

/-- The part that a piece of a path stands for, if it matters. -/
def partOf? (piece : String) : Option Part :=
  if piece == "" || piece == "." then none
  else if piece == ".." then some .parent
  else some (.name piece)

/-- The parts of a path. A single dot counts only as the first piece of a relative path. -/
def parts (path : String) : List Part :=
  let all := pieces path
  let inside := all.filterMap partOf?
  if isAbsolute path then .root :: inside
  else if all.head? == some "." then .current :: inside
  else inside

/-- The last part of a path, if it is a name. -/
def fileName? (path : String) : Option String :=
  match (parts path).getLast? with
  | some (.name text) => some text
  | _ => none

/-- Appends a path to another one; an absolute path stands alone. -/
def join (base path : String) : String :=
  if isAbsolute path then path
  else if base.isEmpty || base.toList.getLast? == some '/' then base ++ path
  else base ++ "/" ++ path

/-- Drops the slashes and single dots at the end of a reversed path. -/
def dropTrailing : List Char → List Char
  | '/' :: rest => dropTrailing rest
  | '.' :: '/' :: rest => dropTrailing rest
  | cs => cs

/-- The text of a path without its last part; `none` for a path without parts to drop. -/
def parent? (path : String) : Option String :=
  match (parts path).getLast? with
  | none | some .root => none
  | some _ =>
    let reversed := dropTrailing path.toList.reverse
    let kept := dropTrailing (reversed.dropWhile (· != '/'))
    if kept.isEmpty && isAbsolute path then some "/" else some (String.ofList kept.reverse)

/-- What stands behind the last dot of a file name; a name that only begins with a dot has nothing
there. -/
def extension? (path : String) : Option String := do
  let name ← fileName? path
  let reversed := name.toList.reverse
  let after := reversed.takeWhile (· != '.')
  if after.length + 1 < reversed.length then some (String.ofList after.reverse) else none

/-- The path of some parts, written with single slashes and without single dots. -/
def render (ps : List Part) : String :=
  ps.foldl append ""
where
  append (out : String) (part : Part) : String :=
    match part with
    | .current => out
    | .root => out ++ "/"
    | _ =>
      if out.isEmpty || out.toList.getLast? == some '/' then out ++ part.text
      else out ++ "/" ++ part.text

/-- The parts of `path` behind those of `base`, if it begins with them. -/
def relativeParts? (base path : List Part) : Option (List Part) :=
  match base, path with
  | [], rest => some rest
  | b :: bs, p :: ps => if b = p then relativeParts? bs ps else none
  | _ :: _, [] => none

end Localization.Path
