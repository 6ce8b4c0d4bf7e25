import Localization.Json.Reader

/-!
Passing values that nobody asks for. Only their form is checked: numbers may be of any size, escapes
need not name characters, and brackets may be nested to any depth.
-/

namespace Localization.Json.Reader

def skipDigits : Reader Unit := do
  let _ ← digits

/-- Passes an exponent, of which the letter stands here. -/
def skipExponent : Reader Unit := do
  bump
  match ← peek? with
  | some '+' | some '-' => bump
  | _ => pure ()
  if (← peek?).any isDigit then skipDigits else refuseNext .invalidNumber

def skipFraction : Reader Unit := do
  bump
  if (← peek?).any isDigit then
    skipDigits
    match ← peek? with
    | some 'e' | some 'E' => skipExponent
    | _ => return ()
  else refuseNext .invalidNumber

def skipNumber : Reader Unit := do
  match ← peek? with
  | some '0' =>
    bump
    if (← peek?).any isDigit then refuseNext .invalidNumber
  | some c => if isDigit c then skipDigits else refuseNext .invalidNumber
  | none => refuse .invalidNumber
  match ← peek? with
  | some '.' => skipFraction
  | some 'e' | some 'E' => skipExponent
  | _ => return ()

def skipEscape : Reader Unit := do
  match ← peek? with
  | none => refuse .stringUnclosed
  | some c =>
    if (simpleEscape? c).isSome then bump
    else if c = 'u' then
      bump
      let _ ← fourDigits
    else refuseNext .invalidEscape

/-- Passes characters up to the closing quote of a string, and that quote. -/
def skipCharacters : Nat → Reader Unit
  | 0 => refuse .stringUnclosed
  | fuel + 1 => do
    match ← peek? with
    | none => refuse .stringUnclosed
    | some '\x22' => bump
    | some '\\' =>
      bump
      skipEscape
      skipCharacters fuel
    | some c =>
      if c.toNat < 0x20 then refuse .controlCharacter
      bump
      skipCharacters fuel

def skipString : Reader Unit := do
  skipCharacters ((← get).rest.length + 1)

def skipKey : Reader Unit := do
  match ← skipBlanks with
  | some '\x22' =>
    bump
    skipString
    colon
  | some _ => refuseNext .keyNotString
  | none => refuse .objectUnclosed

mutual

/-- Passes a value; `fuel` bounds the number of values and brackets in it. -/
def skipWith : Nat → Reader Unit
  | 0 => refuse .valueMissing
  | fuel + 1 => do
    match ← skipBlanks with
    | none => refuse .valueMissing
    | some c =>
      if c = 'n' then
        bump
        word ['u', 'l', 'l']
      else if c = 't' then
        bump
        word ['r', 'u', 'e']
      else if c = 'f' then
        bump
        word ['a', 'l', 's', 'e']
      else if c = '-' then
        bump
        skipNumber
      else if isDigit c then skipNumber
      else if c = '\x22' then
        bump
        skipString
      else if c = '[' then
        bump
        match ← skipBlanks with
        | some ']' => bump
        | some _ => skipItems fuel
        | none => refuse .arrayUnclosed
      else if c = '\x7b' then
        bump
        match ← skipBlanks with
        | some '\x7d' => bump
        | some _ => skipMembers fuel
        | none => refuse .objectUnclosed
      else refuseNext .expectedValue

/-- Passes the items of an array from the next one on, and the end of the array. -/
def skipItems : Nat → Reader Unit
  | 0 => refuse .arrayUnclosed
  | fuel + 1 => do
    skipWith fuel
    match ← skipBlanks with
    | some ',' =>
      bump
      skipItems fuel
    | some ']' => bump
    | some _ => refuseNext .expectedArrayComma
    | none => refuse .arrayUnclosed

/-- Passes the members of an object from the next one on, and the end of the object. -/
def skipMembers : Nat → Reader Unit
  | 0 => refuse .objectUnclosed
  | fuel + 1 => do
    skipKey
    skipWith fuel
    match ← skipBlanks with
    | some ',' =>
      bump
      skipMembers fuel
    | some '\x7d' => bump
    | some _ => refuseNext .expectedObjectComma
    | none => refuse .objectUnclosed

end

def skipValue : Reader Unit := do
  skipWith (2 * (← get).rest.length + 2)

end Localization.Json.Reader
