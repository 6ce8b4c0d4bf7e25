import Localization.Json.Error
import Localization.Text.Bytes

/-!
Reading JSON texts. The operations of this module read from the front of a text and know the place of
every fault; both values of any form and values of one type are read with them. Main definition:
`Json.parse?`.
-/

namespace Localization.Json

/-- The text that is left, and its place. -/
structure Cursor where
  rest : List Char
  line : Nat
  column : Nat
  deriving Inhabited

abbrev Reader := StateT Cursor (Except Error)

namespace Reader

def refuse {α : Type} (fault : Fault) : Reader α := fun c =>
  .error ⟨fault, c.line, c.column⟩

/-- Refuses the text at the character in front of the reader, of which one byte is counted. -/
def refuseNext {α : Type} (fault : Fault) : Reader α := fun c =>
  match c.rest with
  | [] => .error ⟨fault, c.line, c.column⟩
  | '\n' :: _ => .error ⟨fault, c.line + 1, 0⟩
  | _ => .error ⟨fault, c.line, c.column + 1⟩

def passed (c : Char) (rest : List Char) (cursor : Cursor) : Cursor :=
  if c = '\n' then ⟨rest, cursor.line + 1, 0⟩ else ⟨rest, cursor.line, cursor.column + c.utf8Size⟩

/-- The character in front of the reader. -/
def peek? : Reader (Option Char) := do return (← get).rest.head?

def bump : Reader Unit := modify fun cursor =>
  match cursor.rest with
  | [] => cursor
  | c :: rest => passed c rest cursor

/-- The cursor behind blanks. -/
def behindBlanks : List Char → Cursor → Cursor
  | [], cursor => cursor
  | c :: rest, cursor =>
    if c = ' ' ∨ c = '\n' ∨ c = '\t' ∨ c = '\r' then behindBlanks rest (passed c rest cursor)
    else cursor

/-- Passes blanks and gives the character behind them. -/
def skipBlanks : Reader (Option Char) := do
  modify fun cursor => behindBlanks cursor.rest cursor
  peek?

/-- Passes the rest of a word. -/
def word : List Char → Reader Unit
  | [] => return ()
  | expected :: more => do
    match ← peek? with
    | none => refuse .valueMissing
    | some c =>
      if c = expected then
        bump
        word more
      else refuseNext .expectedWord

/-! ## Numbers -/

def isDigit (c : Char) : Bool :=
  48 ≤ c.toNat && c.toNat ≤ 57

def digits : Reader (List Char) := do
  let run := (← get).rest.takeWhile isDigit
  modify fun c => ⟨c.rest.drop run.length, c.line, c.column + run.length⟩
  return run

/-- The largest number of 64 bits. -/
def maxNatural : Nat := Nat.pow 2 64 - 1

/-- Appends digits to a number until it would not fit into 64 bits: the number, how many digits were
appended and how many were left over. -/
def appendDigits (n : Nat) : List Char → Nat × Nat × Nat
  | [] => (n, 0, 0)
  | c :: rest =>
    let m := 10 * n + (c.toNat - 48)
    if maxNatural < m then (n, 0, rest.length + 1)
    else
      let (value, used, left) := appendDigits m rest
      (value, used + 1, left)

/-- The float `n * 10 ^ e`. Its last bit may be off: number and power are rounded by themselves. -/
def floatOf? (n : Nat) (e : Int) : Option Binary64 := do
  let x ← Binary64.ofNat? n
  if e ≤ -309 then
    let big ← Binary64.ofNat? (Nat.pow 10 308)
    if x.isZero then some x else shift (← x.div? big) (e + 308)
  else if 309 ≤ e then if x.isZero then some x else none
  else
    let power ← Binary64.ofNat? (Nat.pow 10 e.natAbs)
    if 0 ≤ e then x.mul? power else x.div? power
where
  /-- Divides by a further power of ten; beyond two steps nothing is left. -/
  shift (x : Binary64) (e : Int) : Option Binary64 := do
    let big ← Binary64.ofNat? (Nat.pow 10 308)
    if e ≤ -309 then
      let y ← x.div? big
      if e + 308 ≤ -309 then some ⟨0, -1074⟩
      else y.div? (← Binary64.ofNat? (Nat.pow 10 (e + 308).natAbs))
    else x.div? (← Binary64.ofNat? (Nat.pow 10 e.natAbs))

def float (isNegative : Bool) (n : Nat) (e : Int) : Reader JsonNumber := do
  match floatOf? n e with
  | some x => return .float isNegative x
  | none => refuse .numberOutOfRange

/-- The largest exponent that is taken as it is written. -/
def maxExponent : Nat := Nat.pow 2 31 - 1

/-- An exponent, of which the letter stands here. -/
def exponent (isNegative : Bool) (n : Nat) (e : Int) : Reader JsonNumber := do
  bump
  let isMinus ← do
    match ← peek? with
    | some '+' =>
      bump
      pure false
    | some '-' =>
      bump
      pure true
    | _ => pure false
  match ← peek? with
  | none => refuse .valueMissing
  | some c =>
    if isDigit c then
      let run ← digits
      let value := run.foldl (fun v d => 10 * v + (d.toNat - 48)) 0
      if maxExponent < value then
        if n != 0 && !isMinus then
          -- the place is behind the digit that makes the exponent too large
          modify fun c => { c with column := c.column - leftOver 0 run }
          refuse .numberOutOfRange
        return .float isNegative ⟨0, -1074⟩
      float isNegative n (if isMinus then e - value else e + value)
    else refuseNext .invalidNumber
where
  /-- The digits behind the one that makes an exponent too large. -/
  leftOver (value : Nat) : List Char → Nat
    | [] => 0
    | d :: rest =>
      let v := 10 * value + (d.toNat - 48)
      if maxExponent < v then rest.length else leftOver v rest

/-- A fraction, of which the point stands here. -/
def fraction (isNegative : Bool) (n : Nat) (e : Int) : Reader JsonNumber := do
  bump
  let run ← digits
  if run.isEmpty then
    match ← peek? with
    | some _ => refuseNext .invalidNumber
    | none => refuse .valueMissing
  let (value, used, _) := appendDigits n run
  let e := e - used
  match ← peek? with
  | some 'e' | some 'E' => exponent isNegative value e
  | _ => float isNegative value e

/-- A number behind its sign. -/
def number (isNegative : Bool) : Reader JsonNumber := do
  match ← peek? with
  | none => refuse .valueMissing
  | some c =>
    if !isDigit c then refuseNext .invalidNumber
    bump
    let more ←
      if c = '0' then do
        if (← peek?).any isDigit then refuseNext .invalidNumber
        pure []
      else digits
    let (n, _, left) := appendDigits (c.toNat - 48) more
    match ← peek? with
    | some '.' => fraction isNegative n left
    | some 'e' | some 'E' => exponent isNegative n left
    | _ =>
      if 0 < left then float isNegative n left
      else if !isNegative then return .natural n
      else if n = 0 || Nat.pow 2 63 < n then float true n 0
      else return .negative n

/-! ## Strings -/

def hexValue? (c : Char) : Option Nat :=
  Text.Quoted.hexValue? c

def fourDigits : Reader Nat := do
  let run := (← get).rest.take 4
  if Text.byteLength run < 4 then
    run.forM fun _ => bump
    refuse .stringUnclosed
  else
    match run.map hexValue? with
    | [some a, some b, some c, some d] =>
      run.forM fun _ => bump
      return ((16 * a + b) * 16 + c) * 16 + d
    | _ =>
      -- four bytes are passed, of whatever characters
      modify fun cursor => { cursor with column := cursor.column + 4 }
      refuse .invalidEscape

/-- Passes a character that has to follow half of a surrogate pair. -/
def expectPairPart (c : Char) : Reader Unit := do
  match ← peek? with
  | none => refuse .stringUnclosed
  | some d =>
    if d = c then bump
    else refuseNext .surrogateUnfinished

/-- The character of an escape `\u` behind its letter. -/
def unicodeEscape : Reader Char := do
  let n ← fourDigits
  if 0xDC00 ≤ n ∧ n ≤ 0xDFFF then refuse .loneSurrogate
  if n < 0xD800 ∨ 0xDBFF < n then return Char.ofNat n
  expectPairPart '\\'
  expectPairPart 'u'
  let m ← fourDigits
  if m < 0xDC00 ∨ 0xDFFF < m then refuse .loneSurrogate
  return Char.ofNat (0x10000 + (n - 0xD800) * 0x400 + (m - 0xDC00))

def simpleEscape? (c : Char) : Option Char :=
  match c with
  | '\x22' => some '\x22'
  | '\\' => some '\\'
  | '/' => some '/'
  | 'b' => some '\x08'
  | 'f' => some '\x0c'
  | 'n' => some '\n'
  | 'r' => some '\r'
  | 't' => some '\t'
  | _ => none

/-- The character of an escape behind its backslash. -/
def escape : Reader Char := do
  match ← peek? with
  | none => refuse .stringUnclosed
  | some c =>
    match simpleEscape? c with
    | some d =>
      bump
      return d
    | none =>
      if c = 'u' then
        bump
        unicodeEscape
      else refuseNext .invalidEscape

/-- The characters of a string up to its closing quote, which is passed. -/
def characters : Nat → Reader (List Char)
  | 0 => refuse .stringUnclosed
  | fuel + 1 => do
    match ← peek? with
    | none => refuse .stringUnclosed
    | some '\x22' =>
      bump
      return []
    | some '\\' =>
      bump
      let c ← escape
      let rest ← characters fuel
      return c :: rest
    | some c =>
      bump
      if c.toNat < 0x20 then refuse .controlCharacter
      let rest ← characters fuel
      return c :: rest

def string : Reader String := do
  let cs ← characters ((← get).rest.length + 1)
  return String.ofList cs

/-! ## Arrays and objects -/

/-- Whether a further item follows in an array. -/
def hasItem (isFirst : Bool) : Reader Bool := do
  match ← skipBlanks with
  | none => refuse .arrayUnclosed
  | some c =>
    if c = ']' then return false
    else if isFirst then return true
    else if c = ',' then
      bump
      match ← skipBlanks with
      | some ']' => refuseNext .trailingComma
      | some _ => return true
      | none => refuse .valueMissing
    else refuseNext .expectedArrayComma

def endArray : Reader Unit := do
  match ← skipBlanks with
  | some ']' => bump
  | some ',' =>
    bump
    match ← skipBlanks with
    | some ']' => refuseNext .trailingComma
    | _ => refuseNext .trailingCharacters
  | some _ => refuseNext .trailingCharacters
  | none => refuse .arrayUnclosed

/-- Whether a further member follows in an object; its key then stands here. -/
def hasMember (isFirst : Bool) : Reader Bool := do
  match ← skipBlanks with
  | none => refuse .objectUnclosed
  | some c =>
    if c = '\x7d' then return false
    else if isFirst then
      if c = '\x22' then return true else refuseNext .keyNotString
    else if c = ',' then
      bump
      match ← skipBlanks with
      | some '\x22' => return true
      | some '\x7d' => refuseNext .trailingComma
      | some _ => refuseNext .keyNotString
      | none => refuse .valueMissing
    else refuseNext .expectedObjectComma

/-- A key, of which the opening quote stands here. -/
def key : Reader String := do
  bump
  string

def colon : Reader Unit := do
  match ← skipBlanks with
  | some ':' => bump
  | some _ => refuseNext .expectedColon
  | none => refuse .objectUnclosed

def endObject : Reader Unit := do
  match ← skipBlanks with
  | some '\x7d' => bump
  | some ',' => refuseNext .trailingComma
  | some _ => refuseNext .trailingCharacters
  | none => refuse .objectUnclosed

/-- The items of an array behind its opening bracket. -/
def items {α : Type} (item : Reader α) : Reader (List α) := fun c =>
  loop true (c.rest.length + 1) c
where
  loop (isFirst : Bool) : Nat → Reader (List α)
    | 0 => refuse .arrayUnclosed
    | fuel + 1 => do
      if ← hasItem isFirst then
        let a ← item
        let rest ← loop false fuel
        return a :: rest
      else return []

/-- Folds the members of an object behind its opening brace; `member` reads the part behind a key. -/
def members {α : Type} (start : α) (member : String → α → Reader α) : Reader α := fun c =>
  loop true start (c.rest.length + 1) c
where
  loop (isFirst : Bool) (a : α) : Nat → Reader α
    | 0 => refuse .objectUnclosed
    | fuel + 1 => do
      if ← hasMember isFirst then
        let name ← key
        let b ← member name a
        loop false b fuel
      else return a

/-! ## Values -/

/-- A value; `inner` reads the values inside its brackets. -/
def valueAround (inner : Option (Reader Json)) : Reader Json := do
  match ← skipBlanks with
  | none => refuse .valueMissing
  | some c =>
    if c = 'n' then
      bump
      word ['u', 'l', 'l']
      return .null
    else if c = 't' then
      bump
      word ['r', 'u', 'e']
      return .bool true
    else if c = 'f' then
      bump
      word ['a', 'l', 's', 'e']
      return .bool false
    else if c = '-' then
      bump
      return .number (← number true)
    else if isDigit c then return .number (← number false)
    else if c = '\x22' then
      bump
      return .string (← string)
    else if c = '[' ∨ c = '\x7b' then
      match inner with
      | none => refuseNext .tooDeep
      | some inside =>
        bump
        if c = '[' then
          let list ← items inside
          endArray
          return .array list
        else
          let map ← members (OrderedMap.empty : OrderedMap Json) fun name m => do
            colon
            let v ← inside
            return m.insert name v
          endObject
          return .object map.entries
    else refuseNext .expectedValue

/-- A value in which at most `depth` brackets are open at once. -/
def value : Nat → Reader Json
  | 0 => valueAround none
  | depth + 1 => valueAround (some (value depth))

/-- The number of brackets that may be open at once. -/
def depthLimit : Nat := 127

/-- Refuses what stands behind a whole text. -/
def endOfText : Reader Unit := do
  match ← skipBlanks with
  | some _ => refuseNext .trailingCharacters
  | none => return ()

def run {α : Type} (r : Reader α) (text : List Char) : Except Error α := do
  let whole : Reader α := do
    let a ← r
    endOfText
    return a
  let (a, _) ← StateT.run whole ⟨text, 1, 0⟩
  return a

end Reader

def parse? (text : List Char) : Except Error Json :=
  Reader.run (Reader.value Reader.depthLimit) text

end Localization.Json
