import Localization.OrderedMap
import Localization.Text.Blank
import Localization.Text.CharRange

/-!
Keys made from texts. A key is the text itself or, with generation on, the text in camel case, perhaps
with something in front; the generated keys are recorded with their texts.
-/

namespace Localization

/-- Generated keys and the texts they stand for. -/
abbrev KeyMap := OrderedMap String

def isLatinOrDigit (c : Char) : Bool :=
  let n := c.toNat
  (97 ≤ n && n ≤ 122) || (65 ≤ n && n ≤ 90) || (48 ≤ n && n ≤ 57)

def countsForKey (c : Char) : Bool :=
  isLatinOrDigit c || Text.isHangul c || Text.isBlank c

/-- A word with its first letter in upper case and all others in lower case. -/
def capitalized : List Char → List Char
  | [] => []
  | c :: rest => c.toUpper :: rest.map Char.toLower

/-- The words of a text in camel case; empty when no character counts. -/
def camelCase (text : List Char) : List Char :=
  match Text.words (text.filter countsForKey) with
  | [] => []
  | first :: others => first.map Char.toLower ++ others.flatMap capitalized

structure KeyGenerator where
  enabled : Bool
  /-- What stands in front of generated keys, a dot between. -/
  keyPrefix : Option String
  deriving DecidableEq, Repr, Inhabited

namespace KeyGenerator

/-- A generator; an empty text in front of keys is none. -/
def make (enabled : Bool) (keyPrefix : Option String) : KeyGenerator :=
  ⟨enabled, keyPrefix.filter fun p => !p.isEmpty⟩

/-- A text in camel case or, if nothing of it counts, without white space at its ends. -/
def baseKey (text : String) : String :=
  let key := camelCase text.toList
  if key.isEmpty then Text.trimString text else String.ofList key

def generatedKey (g : KeyGenerator) (text : String) : String :=
  match g.keyPrefix with
  | some p => p ++ "." ++ baseKey text
  | none => baseKey text

/-- The key of a text, and the map in which it is recorded if it was generated. -/
def keyFor (g : KeyGenerator) (text : String) (keys : KeyMap) : String × KeyMap :=
  if g.enabled then
    let key := g.generatedKey text
    (key, keys.insert key text)
  else (text, keys)

end KeyGenerator

end Localization
