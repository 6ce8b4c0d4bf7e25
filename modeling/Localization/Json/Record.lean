import Localization.Json.Skip

/-!
Reading values of one type. A record is read from an object, or from an array with the values of its
fields in order; fields that are left out keep their defaults, and unknown ones are passed over.
-/

namespace Localization.Json

namespace Reader

/-- Refuses the value in front of the reader, which is of another type. A scalar is read first. -/
def refuseType {α : Type} (expected : String) : Reader α := do
  match ← skipBlanks with
  | none => refuse .valueMissing
  | some c =>
    if c = '[' then refuse (.invalidType .array expected)
    else if c = '\x7b' then refuse (.invalidType .object expected)
    else
      match ← value 0 with
      | .null => refuse (.invalidType .null expected)
      | .bool b => refuse (.invalidType (.bool b) expected)
      | .number n => refuse (.invalidType (.number n) expected)
      | .string s => refuse (.invalidType (.string s) expected)
      | .array _ => refuse (.invalidType .array expected)
      | .object _ => refuse (.invalidType .object expected)

def truth : Reader Bool := do
  match ← skipBlanks with
  | some 't' =>
    bump
    word ['r', 'u', 'e']
    return true
  | some 'f' =>
    bump
    word ['a', 'l', 's', 'e']
    return false
  | _ => refuseType "a boolean"

/-- A string, which is expected under some name. -/
def textAs (expected : String) : Reader String := do
  match ← skipBlanks with
  | some '\x22' =>
    bump
    string
  | _ => refuseType expected

def text : Reader String :=
  textAs "a string"

def optional {α : Type} (r : Reader α) : Reader (Option α) := do
  match ← skipBlanks with
  | some 'n' =>
    bump
    word ['u', 'l', 'l']
    return none
  | _ => return some (← r)

def list {α : Type} (r : Reader α) : Reader (List α) := do
  match ← skipBlanks with
  | some '[' =>
    bump
    let xs ← items r
    endArray
    return xs
  | _ => refuseType "a sequence"

def named {α : Type} (choices : List (String × α)) (name : String) : Reader α :=
  match choices.lookup name with
  | some a => return a
  | none => refuse (.unknownVariant name (choices.map Prod.fst))

/-- One of some named values: its name, or an object with the name as its only key and no value. -/
def choice {α : Type} (choices : List (String × α)) : Reader α := do
  match ← skipBlanks with
  | none => refuse .valueMissing
  | some '\x22' => do
    bump
    named choices (← string)
  | some '\x7b' => do
    bump
    let a ← named choices (← textAs "variant identifier")
    colon
    match ← skipBlanks with
    | some 'n' =>
      bump
      word ['u', 'l', 'l']
    | _ => refuseType "unit"
    match ← skipBlanks with
    | some '\x7d' =>
      bump
      return a
    | some _ => refuse .expectedValue
    | none => refuse .objectUnclosed
  | some _ => refuseNext .expectedValue

end Reader

/-- A field of a record: its name, how its value changes a record, and the value that a record has
there, unless it is to be left out. -/
structure RecordField (α : Type) where
  name : String
  read : Reader (α → α)
  write : α → Option Json

namespace Reader

/-- Refuses a second value of a field. The place is behind the key, or behind the object if that ends
there. -/
def refuseDuplicate {α : Type} (name : String) : Reader α := do
  match ← skipBlanks with
  | some '\x7d' => bump
  | _ => pure ()
  refuse (.duplicateField name)

/-- Reads the member of a record behind its key. The state is the record so far and the names of the
fields that were read. -/
def recordMember {α : Type} (fields : List (RecordField α)) (key : String)
    (state : α × List String) : Reader (α × List String) :=
  match fields.find? fun f => f.name == key with
  | none => do
    colon
    skipValue
    return state
  | some f =>
    if state.2.contains key then refuseDuplicate key
    else do
      colon
      let change ← f.read
      return (change state.1, key :: state.2)

/-- Reads the values of fields from the items of an array. -/
def recordItems {α : Type} (isFirst : Bool) (a : α) : List (RecordField α) → Reader α
  | [] => return a
  | f :: rest => do
    if ← hasItem isFirst then
      let change ← f.read
      recordItems false (change a) rest
    else return a

/-- A record, which is expected under some name. -/
def record {α : Type} (expected : String) (fields : List (RecordField α)) (default : α) :
    Reader α := do
  match ← skipBlanks with
  | none => refuse .valueMissing
  | some '\x7b' =>
    bump
    let (a, _) ← members (default, []) (recordMember fields)
    endObject
    return a
  | some '[' =>
    bump
    let a ← recordItems true default fields
    endArray
    return a
  | some _ => refuseType expected

end Reader

def ofRecord {α : Type} (fields : List (RecordField α)) (a : α) : Json :=
  .object (fields.filterMap fun f => (f.write a).map (f.name, ·))

end Localization.Json
