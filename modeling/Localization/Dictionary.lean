import Localization.Failure
import Localization.Json.Reader
import Localization.Json.Value
import Localization.Key.Generator
import Localization.Key.Set

/-!
Dictionaries: the texts of keys in one language, and the files they are kept in. Main definition:
`Dictionary.merge`, which adds the keys that a dictionary does not have yet.
-/

namespace Localization

/-- The values of keys. A value that is not a string is kept but has no text. -/
abbrev Dictionary := OrderedMap Json

namespace Dictionary

def textOf? (d : Dictionary) (key : String) : Option String :=
  match d.get? key with
  | some (.string text) => some text
  | _ => none

/-- The written form of a dictionary, with a line end behind it. -/
def render (d : Dictionary) : String :=
  (Json.object d.entries).render ++ "\n"

/-- Adds a key with its text if the key is not there; the number tells how many keys were added. -/
def addMissing (start : Dictionary × Nat) (key text : String) : Dictionary × Nat :=
  if start.1.contains key then start
  else (start.1.insert key (.string text), start.2 + 1)

def sorted (d : Dictionary) : Dictionary :=
  ⟨Text.sortBy Prod.fst d.entries⟩

/-- Adds the keys of a set to a dictionary, if there is one, and tells how many were missing. What is
there stays as it is. -/
def merge (existing : Option Dictionary) (keys : KeySet) (isSorted : Bool) : Dictionary × Nat :=
  let start : Dictionary × Nat := (existing.getD OrderedMap.empty, 0)
  let (all, added) := keys.unique.foldl (fun d o => addMissing d o.key o.initialText) start
  (if isSorted then all.sorted else all, added)

def mergeGenerated (existing : Option Dictionary) (keys : KeyMap) : Dictionary × Nat :=
  let start : Dictionary × Nat := (existing.getD OrderedMap.empty, 0)
  keys.entries.foldl (fun d e => addMissing d e.1 e.2) start

end Dictionary

/-! ## Dictionaries in files -/

namespace Workspace

/-- Writes a file and makes the directories above it. What was made stays if a later step fails. -/
def save (w : Workspace) (path : String) (text : List Char) : Workspace × Except Failure Unit :=
  let made : Except Failure Workspace :=
    match Path.parent? path with
    | none => .ok w
    | some parent =>
      if parent.isEmpty then .ok w
      else (w.makeDirectories parent).mapError (Failure.ofFile (.creatingDirectory parent))
  match made with
  | .error e => (w, .error e)
  | .ok ready =>
    match ready.writeText path text with
    | .error e => (ready, .error (.ofFile (.writingFile path) e))
    | .ok written => (written, .ok ())

end Workspace

namespace Dictionary

def parse? (path : String) (text : List Char) : Except Failure Dictionary :=
  match Json.parse? text with
  | .error e => .error ⟨[.parsingDictionary path], .json e⟩
  | .ok (.object members) => .ok ⟨members⟩
  | .ok _ => .error (.of (.notDictionary path))

/-- The dictionary in a file; `none` if there is no such file. -/
def read? (w : Workspace) (path : String) : Except Failure (Option Dictionary) :=
  if w.exists path then do
    let text ← (w.readText path).mapError (Failure.ofFile (.readingDictionary path))
    let d ← parse? path text
    .ok (some d)
  else .ok none

def write (d : Dictionary) (w : Workspace) (path : String) : Workspace × Except Failure Unit :=
  w.save path d.render.toList

end Dictionary

end Localization
